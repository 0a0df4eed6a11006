import Homestead.Proofs.Accounts
import Homestead.Proofs.Acts
import Homestead.Proofs.Isolation
import Homestead.Proofs.Responding

/-!
# Exactness of a dispatch

A dispatch fires each effect that it finds once and no other. Where a copy is registered once, its
effects are fired by one match, and until that match nothing happens to the copy: what was found on
it is what can be applied when its turn comes (`Match.FiresAll.fires_at`). So the effects of a match
are applied from the first on, up to the one that is refused if there is one
(`Copy.Applies.applied_eq`), and each that was applied counts one use more
(`Copy.Applies.usedOnce`).
-/

namespace Homestead

/-! ## Definitions -/

/-- The second copy is the first with one more use of just those effects. -/
structure Copy.UsedOnce (fired : Nat → Prop) (c c' : Copy) : Prop where
  id : c'.id = c.id
  card : c'.card = c.card
  length : c'.uses.length = c.uses.length
  succ : ∀ {i u}, fired i → c.uses[i]? = some u → c'.uses[i]? = some ⟨u.count.succ⟩
  same : ∀ {i}, ¬fired i → c'.uses[i]? = c.uses[i]?

/-- When effects of a copy are fired in order, one of them is refused after those before it went
through. -/
def Farm.FailsIn (policy : PaymentPolicy) (id : CopyId) (is : List Nat) (f : Farm) (j : Nat) :
    Prop :=
  ∃ before after g o cause, is = before ++ j :: after ∧ f.fire policy id before = .ok (g, o) ∧
    o.failure = none ∧ g.applyEffect id j policy = .ok (.error cause)

namespace Registry

/-- In the dispatch of an event, an effect of a copy is refused when its turn comes: the matches
before that of the copy were executed, and the effects before it in the match went through. -/
def FailsInTurn (r : Registry) (farms : Seating Farm) (seat : Seat) (event : Event) (id : CopyId)
    (j : Nat) : Prop :=
  ∃ earlier is later reached firings f,
    r.find farms seat event = earlier ++ ⟨seat, id, is⟩ :: later ∧
      Match.fireAll r.policy earlier farms = .ok (reached, firings) ∧
      reached.get? seat = some f ∧ f.FailsIn r.policy id is j

/-- The dispatch of an event fires an effect of a copy: the copy is registered and owned, the event
finds the effect due, and neither it nor an effect before it fails in its turn. -/
structure FiresAt (r : Registry) (farms : Seating Farm) (seat : Seat) (event : Event) (id : CopyId)
    (i : Nat) : Prop where
  registered : id ∈ r.copiesOf seat
  due : ∃ f c e, farms.get? seat = some f ∧ f.copy? id = some c ∧ c.card.effects[i]? = some e ∧
    e.moment = event.moment ∧ c.canApply i ∧ e.accepts event.payload ∧
    (event.filterText = "" ∨ Text.related e.conditionText event.filterText)
  unhindered : ∀ j ≤ i, ¬r.FailsInTurn farms seat event id j

end Registry

variable {policy : PaymentPolicy} {c c' : Copy} {s s' : Store} {i j : Nat} {is js : List Nat}
  {o : Outcome} {event : Event} {cause : Refusal} {f f' g : Farm} {id : CopyId} {seat : Seat}
  {farms farms' reached : Seating Farm} {m : Match} {ms ms' : List Match} {firing : Firing}
  {firings : List Firing}

/-! ## One copy -/

namespace Copy

namespace UsedOnce

variable {p q : Nat → Prop}

theorem congr (h : c.UsedOnce p c') (same : ∀ i, q i ↔ p i) : c.UsedOnce q c' := by
  obtain rfl : q = p := funext fun i => propext (same i)
  exact h

theorem of_none (none : ∀ i, ¬p i) : c.UsedOnce p c :=
  ⟨rfl, rfl, rfl, fun {i _} fired => absurd fired (none i), fun _ => rfl⟩

end UsedOnce

theorem canApply_counting (ne : i ≠ j) (u : Uses) : (c.counting i u).canApply j = c.canApply j := by
  simp only [canApply, counting, List.getElem?_set_ne ne]

namespace Applies

/-- Every effect that was applied counts one use more, where none is listed twice. -/
theorem usedOnce (h : Applies policy is c s c' s' o) (nodup : is.Nodup) :
    c.UsedOnce (· ∈ o.applied) c' := by
  induction h with
  | nil | refused => exact .of_none fun _ => List.not_mem_nil
  | declined _ _ ih => exact ih nodup.of_cons
  | @applied i is c s c₁ s₁ c' s' o hi hrest ih =>
    have ih := ih nodup.of_cons
    have new : i ∉ o.applied := fun mem => (List.nodup_cons.1 nodup).1 (hrest.sublist.subset mem)
    cases applyEffect_eq_ok_iff.1 hi with
    | @applied e u _ he hu allowed =>
      have hset : (c.counting i u).uses[i]? = some ⟨u.count.succ⟩ :=
        List.getElem?_set_self (List.getElem?_eq_some_iff.1 hu).1
      have hother {j} (ne : i ≠ j) : (c.counting i u).uses[j]? = c.uses[j]? :=
        List.getElem?_set_ne ne
      refine ⟨ih.id, ih.card, ih.length.trans List.length_set, fun {j v} fired hv => ?_,
        fun {j} unfired => ?_⟩
      · rcases List.mem_cons.1 fired with rfl | fired
        · cases hu.symm.trans hv
          exact (ih.same new).trans hset
        · exact ih.succ fired ((hother fun eq => new (eq ▸ fired)).trans hv)
      · obtain ⟨ne, unfired⟩ := not_or.1 (mt List.mem_cons.2 unfired)
        exact (ih.same unfired).trans (hother fun eq => ne eq.symm)

/-- Effects that may all be applied are applied up to the first refusal. -/
theorem applied_eq (h : Applies policy is c s c' s' o) (nodup : is.Nodup)
    (able : ∀ i ∈ is, c.canApply i) (none : o.failure = none) : o.applied = is := by
  induction h with
  | nil => rfl
  | refused => cases none
  | declined hi =>
    cases applyEffect_eq_ok_iff.1 hi with
    | declined no => simp [no] at able
  | @applied i is c s c₁ s₁ c' s' o hi hrest ih =>
    obtain ⟨new, nodup⟩ := List.nodup_cons.1 nodup
    cases applyEffect_eq_ok_iff.1 hi with
    | applied =>
      refine congrArg (i :: ·) (ih nodup (fun j hj => ?_) none)
      have ne : i ≠ j := fun eq => new (eq ▸ hj)
      rw [canApply_counting ne]
      exact able j (List.mem_cons_of_mem _ hj)

/-- Effects that go through and one that is refused after them end the application there. -/
theorem then_refused (h : Applies policy is c s c' s' o) (none : o.failure = none)
    (hi : c'.applyEffect i policy s' = .ok (.error cause)) (js : List Nat) :
    Applies policy (is ++ i :: js) c s c' s' ⟨o.applied, some cause⟩ := by
  induction h with
  | nil => exact .refused hi
  | refused => cases none
  | declined hfirst _ ih => exact .declined hfirst (ih none hi)
  | applied hfirst _ ih => exact .applied hfirst (ih none hi)

end Applies

/-- What an event finds due on a copy, in the words of the card. -/
theorem mem_due : i ∈ c.due event ↔
    ∃ e, c.card.effects[i]? = some e ∧ e.moment = event.moment ∧ c.canApply i ∧
      e.accepts event.payload ∧
      (event.filterText = "" ∨ Text.related e.conditionText event.filterText) := by
  simp only [due, answers, Card.effectsAt, List.mem_filter, List.mem_map, accepts, passes,
    List.mem_zipIdx_iff_getElem?, Prod.exists]
  constructor
  · rintro ⟨⟨⟨⟨e, k, ⟨he, hmoment⟩, rfl⟩, able⟩, haccepts⟩, hpasses⟩
    simp only [he] at haccepts hpasses
    exact ⟨e, he, by simpa using hmoment, able, haccepts, by simpa using hpasses⟩
  · rintro ⟨e, he, hmoment, able, haccepts, hpasses⟩
    simp only [he]
    exact ⟨⟨⟨⟨e, i, ⟨he, by simpa using hmoment⟩, rfl⟩, able⟩, haccepts⟩, by simpa using hpasses⟩

theorem canApply_of_mem_due (h : i ∈ c.due event) : c.canApply i := by
  obtain ⟨e, -, -, able, -⟩ := mem_due.1 h
  exact able

/-- What is due stands in the order of the card's effects. -/
theorem due_pairwise (c : Copy) (event : Event) : (c.due event).Pairwise (· < ·) := by
  have hall : (c.card.effects.zipIdx.map Prod.snd).Pairwise (· < ·) := by
    rw [List.zipIdx_map_snd]
    exact List.pairwise_lt_range'
  have hat : (c.card.effectsAt event.moment).Sublist (c.card.effects.zipIdx.map Prod.snd) :=
    List.filter_sublist.map Prod.snd
  have hanswers : (c.answers event).Sublist (c.card.effectsAt event.moment) :=
    List.filter_sublist.trans List.filter_sublist
  exact hall.sublist ((List.filter_sublist.trans hanswers).trans hat)

theorem due_nodup (c : Copy) (event : Event) : (c.due event).Nodup :=
  (c.due_pairwise event).imp Nat.ne_of_lt

end Copy

/-! ## One farm -/

namespace Farm.Fires

theorem then_refused (h : f.Fires policy id is g o) (none : o.failure = none)
    (hi : g.applyEffect id i policy = .ok (.error cause)) (js : List Nat) :
    f.Fires policy id (is ++ i :: js) g ⟨o.applied, some cause⟩ := by
  cases h with
  | absent hc =>
    rw [applyEffect, hc] at hi
    cases hi
  | @owned c c' s' o hc happlies =>
    have hid : c'.id = id := happlies.id_card.1.trans (id_of_copy? hc)
    rw [applyEffect_of_copy? (copy?_replace_self hc hid s'), store_replace] at hi
    obtain ⟨cause' | _ | _, happly, hi⟩ := Checked.bind_eq_ok.1 hi
    · cases hi
      exact .owned hc (happlies.then_refused none happly js)
    · cases hi
    · cases hi

theorem applied_eq (h : f.Fires policy id is g o) (hc : f.copy? id = some c) (nodup : is.Nodup)
    (able : ∀ i ∈ is, c.canApply i) (none : o.failure = none) : o.applied = is := by
  cases h with
  | absent absent => cases absent.symm.trans hc
  | owned hown happlies =>
    cases hown.symm.trans hc
    exact happlies.applied_eq nodup able none

theorem usedOnce (h : f.Fires policy id is g o) (hc : f.copy? id = some c) (nodup : is.Nodup) :
    ∃ c', g.copy? id = some c' ∧ c.UsedOnce (· ∈ o.applied) c' := by
  cases h with
  | absent absent => cases absent.symm.trans hc
  | @owned _ c' s' o hown happlies =>
    cases hown.symm.trans hc
    refine ⟨c', ?_, happlies.usedOnce nodup⟩
    exact copy?_replace_self hc (happlies.id_card.1.trans (id_of_copy? hc)) s'

/-- Where effects are listed in ascending order, just those are applied that no refusal precedes. -/
theorem mem_applied (h : f.Fires policy id is g o) (hc : f.copy? id = some c)
    (sorted : is.Pairwise (· < ·)) (able : ∀ i ∈ is, c.canApply i) :
    i ∈ o.applied ↔ i ∈ is ∧ ∀ j ≤ i, ¬f.FailsIn policy id is j := by
  constructor
  · intro applied
    refine ⟨h.sublist.subset applied, ?_⟩
    rintro j hji ⟨before, after, g', o', cause, rfl, hfire, none, hlast⟩
    have hbefore := fire_eq_ok_iff.1 hfire
    -- a refusal at `j` ends the match, so what was applied is listed before `j`
    have hended := fire_eq_ok_iff.2 (hbefore.then_refused none hlast after)
    obtain ⟨-, rfl⟩ := Prod.mk.inj (Except.ok.inj ((fire_eq_ok_iff.2 h).symm.trans hended))
    have mem : i ∈ before := hbefore.sublist.subset applied
    have := (List.pairwise_append.1 sorted).2.2 i mem j List.mem_cons_self
    omega
  · rintro ⟨mem, unhindered⟩
    cases hfail : o.failure with
    | none => exact h.applied_eq hc (sorted.imp Nat.ne_of_lt) able hfail ▸ mem
    | some cause =>
      obtain ⟨before, j, after, rfl, hbefore, hlast⟩ := h.cut hfail
      have fails : f.FailsIn policy id (before ++ j :: after) j :=
        ⟨before, after, g, _, cause, rfl, fire_eq_ok_iff.2 hbefore, rfl, hlast⟩
      have first : ¬j ≤ i := fun le => unhindered j le fails
      obtain ⟨hsorted, hafter, -⟩ := List.pairwise_append.1 sorted
      have all : o.applied = before :=
        hbefore.applied_eq hc (hsorted.imp Nat.ne_of_lt)
          (fun k hk => able k (List.mem_append_left _ hk)) rfl
      rw [all]
      rcases List.mem_append.1 mem with mem | mem
      · exact mem
      · rcases List.mem_cons.1 mem with rfl | mem
        · exact absurd (Nat.le_refl i) first
        · have := (List.pairwise_cons.1 hafter).1 i mem
          omega

theorem estate (h : f.Fires policy id is g o) : f.store.SameEstate g.store := by
  cases h with
  | absent => exact .refl _
  | owned hc happlies =>
    rw [store_replace]
    exact happlies.estate

end Farm.Fires

/-! ## Matches -/

namespace Match

theorem Fires.copy?_of_ne (h : m.Fires policy farms farms' firing) (hf : farms.get? seat = some f)
    (ne : m.copy ≠ id) : ∃ f', farms'.get? seat = some f' ∧ f'.copy? id = f.copy? id := by
  cases h with
  | noFarm => exact ⟨f, hf, rfl⟩
  | @farm g g' o hg hfires =>
    by_cases eq : m.seat = seat
    · subst eq
      cases hg.symm.trans hf
      exact ⟨g', Seating.get?_set_self hg g', hfires.copy?_ne ne⟩
    · exact ⟨f, (Seating.get?_set_ne eq g').trans hf, rfl⟩

namespace FiresAll

theorem copy?_of_ne (h : FiresAll policy ms farms farms' firings) (hf : farms.get? seat = some f)
    (others : ∀ m ∈ ms, m.copy ≠ id) :
    ∃ f', farms'.get? seat = some f' ∧ f'.copy? id = f.copy? id := by
  induction h generalizing f with
  | nil => exact ⟨f, hf, rfl⟩
  | cons hm _ ih =>
    obtain ⟨first, rest⟩ := List.forall_mem_cons.1 others
    obtain ⟨f₁, hf₁, hfirst⟩ := hm.copy?_of_ne hf first
    obtain ⟨f', hf', hrest⟩ := ih hf₁ rest
    exact ⟨f', hf', hrest.trans hfirst⟩

theorem exists_firing (h : FiresAll policy ms farms farms' firings) (hm : m ∈ ms) :
    ∃ o, ⟨m, o⟩ ∈ firings := by
  rw [← h.aims] at hm
  obtain ⟨⟨aim, o⟩, mem, rfl⟩ := List.mem_map.1 hm
  exact ⟨o, mem⟩

/-- Where each copy has one match, a copy is as it was when its match is fired, and stays as the
match leaves it. -/
theorem fires_at (h : FiresAll policy ms farms farms' firings)
    (mem : ⟨⟨seat, id, is⟩, o⟩ ∈ firings) (once : (ms.map Match.copy).Nodup)
    (hf : farms.get? seat = some f) :
    ∃ earlier later reached fs f₁ f₂ f', ms = earlier ++ ⟨seat, id, is⟩ :: later ∧
      FiresAll policy earlier farms reached fs ∧ reached.get? seat = some f₁ ∧
      f₁.copy? id = f.copy? id ∧ f₁.Fires policy id is f₂ o ∧
      farms'.get? seat = some f' ∧ f'.copy? id = f₂.copy? id := by
  induction h generalizing f with
  | nil => cases mem
  | @cons m ms farms farms₁ farms' first firings hm hms ih =>
    obtain ⟨new, once⟩ := List.nodup_cons.1 once
    rcases List.mem_cons.1 mem with rfl | mem
    · cases hm with
      | noFarm none => cases none.symm.trans hf
      | @farm g g' _ hg hfires =>
        cases hg.symm.trans hf
        have others : ∀ n ∈ ms, n.copy ≠ id := by
          rintro n hn rfl
          exact new (List.mem_map.2 ⟨n, hn, rfl⟩)
        obtain ⟨f', hf', hsame⟩ := hms.copy?_of_ne (Seating.get?_set_self hg g') others
        exact ⟨[], ms, farms, [], _, g', f', rfl, .nil, hg, rfl, hfires, hf', hsame⟩
    · -- the first match is another copy's, so it leaves this one to the rest as it was
      have aimed : ⟨seat, id, is⟩ ∈ ms := hms.aims ▸ List.mem_map_of_mem mem
      have ne : m.copy ≠ id := fun eq => new (eq ▸ List.mem_map_of_mem aimed)
      obtain ⟨g, hg, hsame⟩ := hm.copy?_of_ne hf ne
      obtain ⟨earlier, later, reached, fs, f₁, f₂, f', rfl, hearlier, hreached, hcopy, hrest⟩ :=
        ih mem once hg
      exact ⟨m :: earlier, later, reached, _, f₁, f₂, f', rfl, .cons hm hearlier, hreached,
        hcopy.trans hsame, hrest⟩

theorem estate (h : FiresAll policy ms farms farms' firings) :
    Seating.Related (fun f f' => f.store.SameEstate f'.store) farms farms' := by
  apply h.related
  · intro f
    exact .refl _
  · intro f g h hfg hgh
    exact hfg.trans hgh
  · intro f f' id is o hfires
    exact hfires.estate

/-- Matches of one seat touch the farm of no other. -/
theorem get?_of_ne (h : FiresAll policy ms farms farms' firings) (own : ∀ m ∈ ms, m.seat = seat)
    {other : Seat} (ne : other ≠ seat) : farms'.get? other = farms.get? other := by
  induction h with
  | nil => rfl
  | cons hm _ ih =>
    obtain ⟨first, rest⟩ := List.forall_mem_cons.1 own
    rw [ih rest]
    cases hm with
    | noFarm => rfl
    | @farm _ g' =>
      apply Seating.get?_set_ne
      exact fun eq => ne (eq.symm.trans first)

end FiresAll

/-- Where each copy has one match, a list of matches splits at the match of a copy in one way. -/
theorem split_unique {n : Match} {ns ns' : List Match} (once : ((ms ++ m :: ms').map copy).Nodup)
    (h : ms ++ m :: ms' = ns ++ n :: ns') (same : m.copy = n.copy) : ms = ns ∧ m = n := by
  have hm : m ∈ ms ++ m :: ms' := List.mem_append_right _ List.mem_cons_self
  have hn : n ∈ ms ++ m :: ms' := h ▸ List.mem_append_right _ List.mem_cons_self
  have eq : m = n := List.inj_on_of_nodup_map once hm hn same
  obtain ⟨-, hms, hdisjoint⟩ := List.nodup_append.1 once.of_map
  have before : n ∉ ms := fun mem => hdisjoint n mem m List.mem_cons_self eq.symm
  have after : n ∉ ms' := eq ▸ (List.nodup_cons.1 hms).1
  exact ⟨((List.append_cons_inj_of_notMem before after).1 h).1, eq⟩

end Match

/-! ## Finding -/

namespace Registry

variable {r r' : Registry} {report : Report}

theorem mem_find : m ∈ r.find farms seat event ↔
    ∃ f c, farms.get? seat = some f ∧ f.copy? m.copy = some c ∧ m.copy ∈ r.copiesOf seat ∧
      c.due event ≠ [] ∧ m = ⟨seat, m.copy, c.due event⟩ := by
  unfold find
  cases hf : farms.get? seat with
  | none => simp
  | some f =>
    simp only [List.mem_filterMap, Farm.match?_eq]
    constructor
    · rintro ⟨id, registered, h⟩
      split at h
      · cases h
      · rename_i due
        cases h
        obtain ⟨c, hc⟩ : ∃ c, f.copy? id = some c := by
          apply Option.ne_none_iff_exists'.1
          exact fun absent => due (Farm.due_of_absent absent event)
        rw [Farm.due_of_copy? hc] at due ⊢
        exact ⟨f, c, rfl, hc, registered, due, rfl⟩
    · rintro ⟨g, c, hg, hc, registered, due, eq⟩
      cases hg
      rw [← Farm.due_of_copy? hc] at due eq
      exact ⟨m.copy, registered, by rw [if_neg due, ← eq]⟩

/-- Matches stand in the order in which their copies are registered. -/
theorem find_sublist (r : Registry) (farms : Seating Farm) (seat : Seat) (event : Event) :
    ((r.find farms seat event).map Match.copy).Sublist (r.copiesOf seat) := by
  unfold find
  cases farms.get? seat with
  | none => exact List.nil_sublist _
  | some f =>
    dsimp only
    induction r.copiesOf seat with
    | nil => exact .slnil
    | cons id ids ih =>
      have hmatch := f.match?_eq seat event id
      split at hmatch
      · rw [List.filterMap_cons_none hmatch]
        exact ih.cons _
      · rw [List.filterMap_cons_some hmatch]
        exact ih.cons_cons _

/-- A copy that is registered once has one match at most. -/
theorem find_nodup (once : (r.copiesOf seat).Nodup) (farms : Seating Farm) (event : Event) :
    ((r.find farms seat event).map Match.copy).Nodup :=
  once.sublist (r.find_sublist farms seat event)

theorem seat_of_mem_find (h : m ∈ r.find farms seat event) : m.seat = seat := by
  obtain ⟨f, c, -, -, -, -, eq⟩ := mem_find.1 h
  rw [eq]

/-! ## What a dispatch fires -/

theorem failsInTurn_iff (once : (r.copiesOf seat).Nodup) {earlier later : List Match}
    (hfind : r.find farms seat event = earlier ++ ⟨seat, id, is⟩ :: later)
    (hearlier : Match.FiresAll r.policy earlier farms reached firings)
    (hf : reached.get? seat = some f) :
    r.FailsInTurn farms seat event id j ↔ f.FailsIn r.policy id is j := by
  constructor
  · rintro ⟨earlier', is', later', reached', firings', f', hfind', hearlier', hf', fails⟩
    -- the copy has one match, so both accounts cut the dispatch at the same place
    have unique := hfind ▸ find_nodup once farms event
    obtain ⟨rfl, eq⟩ := Match.split_unique unique (hfind.symm.trans hfind') rfl
    cases eq
    cases (Match.fireAll_eq_ok_iff.2 hearlier).symm.trans hearlier'
    cases hf.symm.trans hf'
    exact fails
  · intro fails
    exact ⟨earlier, is, later, reached, firings, f, hfind, Match.fireAll_eq_ok_iff.2 hearlier, hf,
      fails⟩

/-- A match applies just those effects that the dispatch fires. -/
theorem firesAt_iff (once : (r.copiesOf seat).Nodup)
    (h : Match.FiresAll r.policy (r.find farms seat event) farms farms' firings)
    (mem : ⟨⟨seat, id, is⟩, o⟩ ∈ firings) :
    r.FiresAt farms seat event id i ↔ i ∈ o.applied := by
  have aimed : ⟨seat, id, is⟩ ∈ r.find farms seat event := h.aims ▸ List.mem_map_of_mem mem
  obtain ⟨f, c, hf, hc, registered, -, eq⟩ := mem_find.1 aimed
  cases eq
  obtain ⟨earlier, later, reached, fs, f₁, f₂, f', hfind, hearlier, hreached, hsame, hfires, -⟩ :=
    h.fires_at mem (find_nodup once farms event) hf
  rw [hfires.mem_applied (hsame.trans hc) (c.due_pairwise event) fun _ => Copy.canApply_of_mem_due]
  constructor
  · rintro ⟨-, ⟨g, d, e, hg, hd, hdue⟩, unhindered⟩
    cases hf.symm.trans hg
    cases hc.symm.trans hd
    refine ⟨Copy.mem_due.2 ⟨e, hdue⟩, fun j le fails => ?_⟩
    exact unhindered j le ((failsInTurn_iff once hfind hearlier hreached).2 fails)
  · rintro ⟨due, unhindered⟩
    obtain ⟨e, hdue⟩ := Copy.mem_due.1 due
    refine ⟨registered, ⟨f, c, e, hf, hc, hdue⟩, fun j le fails => ?_⟩
    exact unhindered j le ((failsInTurn_iff once hfind hearlier hreached).1 fails)

theorem FiresAt.mem_find (h : r.FiresAt farms seat event id i) :
    ∃ is, ⟨seat, id, is⟩ ∈ r.find farms seat event := by
  obtain ⟨f, c, e, hf, hc, hdue⟩ := h.due
  have due : c.due event ≠ [] := List.ne_nil_of_mem (Copy.mem_due.2 ⟨e, hdue⟩)
  exact ⟨c.due event, Registry.mem_find.2 ⟨f, c, hf, hc, h.registered, due, rfl⟩⟩

/-- An owned copy counts one use more of each effect that the dispatch fires. -/
theorem usedOnce (once : (r.copiesOf seat).Nodup)
    (h : Match.FiresAll r.policy (r.find farms seat event) farms farms' firings)
    (hf : farms.get? seat = some f) (hc : f.copy? id = some c) :
    ∃ f' c', farms'.get? seat = some f' ∧ f'.copy? id = some c' ∧
      c.UsedOnce (r.FiresAt farms seat event id) c' := by
  by_cases found : ∃ is, ⟨seat, id, is⟩ ∈ r.find farms seat event
  · obtain ⟨is, aimed⟩ := found
    obtain ⟨o, mem⟩ := h.exists_firing aimed
    obtain ⟨earlier, later, reached, fs, f₁, f₂, f', -, -, -, hsame, hfires, hf', hafter⟩ :=
      h.fires_at mem (find_nodup once farms event) hf
    obtain ⟨g, d, hg, hd, -, -, eq⟩ := mem_find.1 aimed
    cases eq
    obtain ⟨c', hc', used⟩ := hfires.usedOnce (hsame.trans hc) (d.due_nodup event)
    exact ⟨f', c', hf', hafter.trans hc', used.congr fun i => firesAt_iff once h mem⟩
  · have others : ∀ m ∈ r.find farms seat event, m.copy ≠ id := by
      rintro ⟨place, id, is⟩ mem rfl
      obtain rfl : place = seat := seat_of_mem_find mem
      exact found ⟨is, mem⟩
    obtain ⟨f', hf', hsame⟩ := h.copy?_of_ne hf others
    exact ⟨f', c, hf', hsame.trans hc, .of_none fun i fires => found fires.mem_find⟩

/-- The effects that were applied are those that the dispatch fires, each once. -/
theorem fired_once (once : (r.copiesOf seat).Nodup)
    (h : Match.FiresAll r.policy (r.find farms seat event) farms farms' firings) :
    ∃ pairs : List (CopyId × Nat), pairs.Nodup ∧
      (∀ id i, (id, i) ∈ pairs ↔ r.FiresAt farms seat event id i) ∧
      (firings.flatMap fun f => f.outcome.applied).length = pairs.length := by
  refine ⟨firings.flatMap fun f => f.outcome.applied.map fun i => (f.aim.copy, i), ?_, ?_, ?_⟩
  · rw [List.nodup_flatMap]
    constructor
    · intro firing mem
      have aimed : firing.aim ∈ r.find farms seat event := h.aims ▸ List.mem_map_of_mem mem
      obtain ⟨f, c, -, -, -, -, eq⟩ := mem_find.1 aimed
      have nodup : firing.outcome.applied.Nodup := by
        apply List.Nodup.sublist (h.sublist mem)
        rw [eq]
        exact c.due_nodup event
      exact nodup.map fun i j same => congrArg Prod.snd same
    · have copies : (firings.map fun f => f.aim.copy).Nodup := by
        have := find_nodup once farms event
        rwa [← h.aims, List.map_map] at this
      refine (List.pairwise_map.1 copies).imp fun {a b} ne => ?_
      apply List.disjoint_left.2
      intro p ha hb
      obtain ⟨i, -, rfl⟩ := List.mem_map.1 ha
      obtain ⟨j, -, eq⟩ := List.mem_map.1 hb
      exact ne (congrArg Prod.fst eq).symm
  · intro id i
    simp only [List.mem_flatMap, List.mem_map, Prod.mk.injEq]
    constructor
    · rintro ⟨⟨⟨place, copy, is⟩, o⟩, mem, j, applied, rfl, rfl⟩
      obtain rfl : place = seat := seat_of_mem_find (h.aims ▸ List.mem_map_of_mem mem)
      exact (firesAt_iff once h mem).2 applied
    · intro fires
      obtain ⟨is, aimed⟩ := fires.mem_find
      obtain ⟨o, mem⟩ := h.exists_firing aimed
      exact ⟨_, mem, i, (firesAt_iff once h mem).1 fires, rfl, rfl⟩
  · simp [List.length_flatMap]

end Registry

/-- A dispatch fires each effect that it is for exactly once, and does nothing else. Where no copy
is registered twice and none of the seat's copies share an identifier, the counter of an effect goes
up by one if the dispatch fires it and stays otherwise; cards, registrations, the farms of other
seats and what the farm is made of stay as they were; and the count that is reported is the number
of effects fired. -/
theorem fires_each_match_once {r r' : Registry} {report : Report}
    (registered_once : (r.copiesOf seat).Nodup)
    (owned_once : ∀ f, farms.get? seat = some f → f.ids.Nodup)
    (h : r.trigger farms seat event = .ok (r', farms', report)) :
    (∀ f, farms.get? seat = some f → ∃ f', farms'.get? seat = some f' ∧
      f.SameCards f' ∧ f.store.SameEstate f'.store ∧
      ∀ c ∈ f.copies, ∃ c' ∈ f'.copies, c.UsedOnce (r.FiresAt farms seat event c.id) c') ∧
    (∃ pairs : List (CopyId × Nat), pairs.Nodup ∧
      (∀ id i, (id, i) ∈ pairs ↔ r.FiresAt farms seat event id i) ∧
      report.executed = pairs.length) ∧
    (∀ other, other ≠ seat → farms'.get? other = farms.get? other) ∧
    (farms.get? seat = none → farms' = farms) ∧
    r'.listed = r.listed := by
  obtain ⟨hall, -, rfl⟩ := Registry.execute_eq_ok_iff.1 h
  refine ⟨?_, ?_, ?_, ?_, rfl⟩
  · intro f hf
    obtain ⟨f', hf', cards⟩ := hall.sameCards.some_left hf
    obtain ⟨g, hg, estate⟩ := hall.estate.some_left hf
    cases hf'.symm.trans hg
    refine ⟨f', hf', cards, estate, fun c hc => ?_⟩
    have meant : f.copy? c.id = some c := Farm.copy?_of_mem (owned_once f hf) hc
    obtain ⟨g, c', hg, hc', used⟩ := Registry.usedOnce registered_once hall hf meant
    cases hf'.symm.trans hg
    exact ⟨c', Farm.mem_of_copy? hc', used⟩
  · exact Registry.fired_once registered_once hall
  · intro other ne
    exact hall.get?_of_ne (fun _ => Registry.seat_of_mem_find) ne
  · intro none
    simp only [Registry.find, none] at hall
    generalize report.firings = firings at hall
    cases hall
    rfl

/-- A table for one, who owns two joineries, a stablehand and wood for one of the joineries. -/
def workshopTable : Seating Farm :=
  ⟨[(((Farm.withStore ⟨0⟩ (Store.empty.setBalance .wood 1)).add (.new ⟨1⟩ Deck.joinery)).add
    (.new ⟨2⟩ Deck.joinery)).add (.new ⟨3⟩ Deck.stablehand)], by decide, by decide⟩

/-- The registry in which all of these are registered. -/
def workshopRegistry : Registry := { Registry.new .strict with listed := [(⟨0⟩, [⟨1⟩, ⟨2⟩, ⟨3⟩])] }

/-- The first joinery takes the wood, and the second fails in its turn. -/
theorem fires_each_match_once_joineries :
    (workshopRegistry.copiesOf ⟨0⟩).Nodup ∧
    (∀ f, workshopTable.get? ⟨0⟩ = some f → f.ids.Nodup) ∧
    ∃ r' farms' report, workshopRegistry.trigger workshopTable ⟨0⟩ (.new .feedingPhase ⟨0⟩) =
        .ok (r', farms', report) ∧
      report.executed = 1 ∧ r'.failures = 1 ∧
      workshopRegistry.FiresAt workshopTable ⟨0⟩ (.new .feedingPhase ⟨0⟩) ⟨1⟩ 0 ∧
      ¬workshopRegistry.FiresAt workshopTable ⟨0⟩ (.new .feedingPhase ⟨0⟩) ⟨2⟩ 0 := by
  have registered : (workshopRegistry.copiesOf ⟨0⟩).Nodup := by decide
  have owned : ∀ f, workshopTable.get? ⟨0⟩ = some f → f.ids.Nodup := by
    rintro f ⟨⟩
    decide
  have htrigger : workshopRegistry.trigger workshopTable ⟨0⟩ (.new .feedingPhase ⟨0⟩) =
      .ok (_, _, _) := rfl
  obtain ⟨f', hf', -, -, hused⟩ := (fires_each_match_once registered owned htrigger).1 _ rfl
  cases hf'
  obtain ⟨c₁, hc₁, used₁⟩ := hused (.new ⟨1⟩ Deck.joinery) (by decide)
  obtain ⟨c₂, hc₂, used₂⟩ := hused (.new ⟨2⟩ Deck.joinery) (by decide)
  refine ⟨registered, owned, _, _, _, htrigger, rfl, rfl, ?_, ?_⟩
  · by_contra unfired
    have same := used₁.same unfired
    have hid := used₁.id
    clear used₁ unfired
    revert c₁
    decide
  · intro fired
    have more := used₂.succ fired rfl
    have hid := used₂.id
    clear used₂
    revert c₂
    decide

end Homestead
