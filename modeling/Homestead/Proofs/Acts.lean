import Homestead.Proofs.Copy.Life
import Homestead.Proofs.Firing

/-!
# Acts on owned copies

When matches are fired, the copies that they aim at are acted on. `Match.actsAll` lists the acts on
the copy of an identifier, in order; they are what the copy goes through
(`Match.FiresAll.life`), and those of them that applied an effect are the ones that the firings
report (`Match.FiresAll.applied_acts`). Copies that stand behind another copy of their identifier
are never reached (`Match.FiresAll.life_at`).

`Copy.Stands` follows a copy on farms with which anything may happen while lists of matches are
executed.
-/

namespace Homestead

/-- The acts on the copy of an identifier when effects of it are fired. -/
def Farm.acts (policy : PaymentPolicy) (id : CopyId) (is : List Nat) (f : Farm) : List Act :=
  match f.copy? id with
  | some c => Copy.acts policy is c f.store
  | none => []

/-- The acts on a seat's copy of an identifier when a match is fired. -/
def Match.acts (policy : PaymentPolicy) (seat : Seat) (id : CopyId) (m : Match)
    (farms : Seating Farm) : List Act :=
  if m.seat = seat ∧ m.copy = id then
    match farms.get? seat with
    | some f => f.acts policy id m.effects
    | none => []
  else []

/-- The acts on a seat's copy of an identifier when several matches are fired. -/
def Match.actsAll (policy : PaymentPolicy) (seat : Seat) (id : CopyId) :
    List Match → Seating Farm → List Act
  | [], _ => []
  | m :: ms, farms =>
    m.acts policy seat id farms ++
      match m.fire policy farms with
      | .ok (farms, _) => actsAll policy seat id ms farms
      | .error _ => []

/-- The effects of a seat's copy that were applied, by the firings aimed at it. -/
def firedOf (seat : Seat) (id : CopyId) (firings : List Firing) : List Nat :=
  (firings.filter fun f => f.aim.seat = seat ∧ f.aim.copy = id).flatMap fun f => f.outcome.applied

/-- The copy stands at a place of a seat's collection. -/
def Copy.At (farms : Seating Farm) (seat : Seat) (k : Nat) (c : Copy) : Prop :=
  ∃ f, farms.get? seat = some f ∧ f.copies[k]? = some c

/-- The acts on the copy at a place of a seat's collection when several matches are fired. -/
def Match.actsAt (policy : PaymentPolicy) (ms : List Match) (farms : Seating Farm) (seat : Seat)
    (k : Nat) : List Act :=
  match farms.get? seat with
  | some f =>
    match f.copies[k]? with
    | some c => if f.slot c.id = k then actsAll policy seat c.id ms farms else []
    | none => []
  | none => []

/-- A copy at a place of a seat's collection, with the acts that it went through since it was `c₀`.
Lists of matches are executed by whatever registry, and between them the farms change in any way
that leaves the copy somewhere and does to it only what can be done to a copy. -/
inductive Copy.Stands (c₀ : Copy) : List Act → Seating Farm → Seat → Nat → Copy → Prop
  | start {past c farms seat k} : Life c₀ past c → c.At farms seat k → Stands c₀ past farms seat k c
  | execute {past farms seat k c r ms event r' farms' report c'} :
    Stands c₀ past farms seat k c →
    Registry.execute r farms ms event = .ok (r', farms', report) → c'.At farms' seat k →
    Stands c₀ (past ++ Match.actsAt r.policy ms farms seat k) farms' seat k c'
  | change {past farms seat k c acts c' farms' seat' k'} : Stands c₀ past farms seat k c →
    Life c acts c' → c'.At farms' seat' k' → Stands c₀ (past ++ acts) farms' seat' k' c'

variable {policy : PaymentPolicy} {seat : Seat} {id other : CopyId} {is : List Nat} {f f' : Farm}
  {o : Outcome} {c c' : Copy} {m : Match} {ms : List Match} {farms farms' : Seating Farm}
  {firing : Firing} {firings : List Firing} {k : Nat}

/-! ## One farm -/

theorem Farm.Fires.life (h : f.Fires policy id is f' o) (hc : f.copy? id = some c) :
    ∃ c', f'.copy? id = some c' ∧ Copy.Life c (f.acts policy id is) c' := by
  cases h with
  | absent none => cases none.symm.trans hc
  | @owned c c' s' o hown happlies =>
    cases hown.symm.trans hc
    refine ⟨c', ?_, ?_⟩
    · exact copy?_replace_self hc (happlies.id_card.1.trans (id_of_copy? hc)) s'
    · rw [Farm.acts, hc]
      exact .of_applies happlies

theorem Farm.Fires.copy?_ne (h : f.Fires policy id is f' o) (ne : id ≠ other) :
    f'.copy? other = f.copy? other := by
  cases h with
  | absent => rfl
  | owned hown happlies =>
    rw [copy?_replace, if_neg]
    rwa [happlies.id_card.1, id_of_copy? hown]

theorem Farm.Fires.applied_acts (h : f.Fires policy id is f' o) :
    (f.acts policy id is).filterMap Act.applied? = o.applied := by
  rw [Farm.acts]
  cases h with
  | absent none =>
    rw [none]
    rfl
  | owned hown happlies =>
    rw [hown]
    exact happlies.applied_acts

/-! ## Matches -/

namespace Match

theorem Fires.life (h : m.Fires policy farms farms' firing) (hf : farms.get? seat = some f)
    (hc : f.copy? id = some c) :
    ∃ f' c', farms'.get? seat = some f' ∧ f'.copy? id = some c' ∧
      Copy.Life c (m.acts policy seat id farms) c' := by
  rw [Match.acts]
  cases h with
  | noFarm none =>
    refine ⟨f, c, hf, hc, ?_⟩
    rw [if_neg]
    · exact .start
    · rintro ⟨rfl, -⟩
      cases none.symm.trans hf
  | @farm g g' o hg hfires =>
    by_cases eq : m.seat = seat
    · subst eq
      cases hg.symm.trans hf
      by_cases aim : m.copy = id
      · subst aim
        obtain ⟨c', hc', life⟩ := hfires.life hc
        rw [if_pos ⟨rfl, rfl⟩, hf]
        exact ⟨g', c', Seating.get?_set_self hf g', hc', life⟩
      · rw [if_neg fun both => aim both.2]
        exact ⟨g', c, Seating.get?_set_self hf g', (hfires.copy?_ne aim).trans hc, .start⟩
    · rw [if_neg fun both => eq both.1]
      exact ⟨f, c, (Seating.get?_set_ne eq g').trans hf, hc, .start⟩

theorem Fires.applied_acts (h : m.Fires policy farms farms' firing) (seat : Seat) (id : CopyId) :
    (m.acts policy seat id farms).filterMap Act.applied? = firedOf seat id [firing] := by
  rw [Match.acts, firedOf]
  by_cases aim : m.seat = seat ∧ m.copy = id
  · obtain ⟨rfl, rfl⟩ := aim
    cases h with
    | noFarm none => simp [none, Outcome.nothing]
    | farm hf hfires => simp [hf, hfires.applied_acts]
  · rw [if_neg aim]
    cases h with
    | noFarm => simp [aim]
    | farm => simp [aim]

theorem acts_nil (absent : ∀ f, farms.get? seat = some f → id ∉ f.ids) (m : Match) :
    m.acts policy seat id farms = [] := by
  rw [Match.acts]
  split
  · cases hf : farms.get? seat with
    | none => rfl
    | some f => simp only [Farm.acts, Farm.copy?_eq_none_iff.2 (absent f hf)]
  · rfl

namespace FiresAll

theorem actsAll_cons (h : m.Fires policy farms farms' firing) (seat : Seat) (id : CopyId)
    (ms : List Match) :
    actsAll policy seat id (m :: ms) farms =
      m.acts policy seat id farms ++ actsAll policy seat id ms farms' := by
  rw [actsAll, Match.fire_eq_ok_iff.2 h]

/-- A copy goes through the acts that firing several matches does on it. -/
theorem life (h : FiresAll policy ms farms farms' firings) (hf : farms.get? seat = some f)
    (hc : f.copy? id = some c) :
    ∃ f' c', farms'.get? seat = some f' ∧ f'.copy? id = some c' ∧
      Copy.Life c (actsAll policy seat id ms farms) c' := by
  induction h generalizing f c with
  | nil => exact ⟨f, c, hf, hc, .start⟩
  | cons hm _ ih =>
    obtain ⟨f₁, c₁, hf₁, hc₁, first⟩ := hm.life hf hc
    obtain ⟨f', c', hf', hc', rest⟩ := ih hf₁ hc₁
    refine ⟨f', c', hf', hc', ?_⟩
    rw [actsAll_cons hm]
    exact first.trans rest

/-- The acts that applied an effect are those that the firings report. -/
theorem applied_acts (h : FiresAll policy ms farms farms' firings) (seat : Seat) (id : CopyId) :
    (actsAll policy seat id ms farms).filterMap Act.applied? = firedOf seat id firings := by
  induction h with
  | nil => rfl
  | @cons m ms farms farms₁ farms' firing firings hm _ ih =>
    have hsplit : firedOf seat id (firing :: firings) =
        firedOf seat id [firing] ++ firedOf seat id firings := by
      rw [firedOf, firedOf, firedOf, ← List.flatMap_append, ← List.filter_append,
        List.singleton_append]
    rw [actsAll_cons hm, List.filterMap_append, hm.applied_acts, ih, hsplit]

theorem actsAll_nil (h : FiresAll policy ms farms farms' firings)
    (absent : ∀ f, farms.get? seat = some f → id ∉ f.ids) :
    actsAll policy seat id ms farms = [] := by
  induction h with
  | nil => rfl
  | @cons m ms farms farms₁ farms' firing firings hm _ ih =>
    rw [actsAll_cons hm, acts_nil absent, List.nil_append]
    refine ih fun f₁ hf₁ hid => ?_
    obtain ⟨f, hf, same⟩ :=
      (hm.related Farm.SameCards.refl fun h => h.sameCards).some_right hf₁
    exact absent f hf (same.ids ▸ hid)

/-- The copies that stand behind another copy of their identifier stay as they are. -/
def Hidden (f f' : Farm) : Prop :=
  f'.ids = f.ids ∧
    ∀ {k c}, f.copies[k]? = some c → f.slot c.id ≠ k → f'.copies[k]? = some c

theorem hidden (h : FiresAll policy ms farms farms' firings) :
    Seating.Related Hidden farms farms' := by
  refine h.related (fun f => ⟨rfl, fun hk _ => hk⟩) ?_ ?_
  · rintro f g h ⟨hfg, hfg'⟩ ⟨hgh, hgh'⟩
    refine ⟨hgh.trans hfg, fun hk ne => hgh' (hfg' hk ne) ?_⟩
    rwa [Farm.slot_eq_of_ids hfg]
  · intro f f' id is o hfires
    refine ⟨hfires.sameCards.ids, fun {k c} hk ne => ?_⟩
    cases hfires with
    | absent => exact hk
    | @owned d d' s' o hown happlies =>
      have hid : d'.id = id := happlies.id_card.1.trans (Farm.id_of_copy? hown)
      rw [Farm.copies_replace, hid]
      by_cases eq : f.slot id = k
      · rw [Farm.copy?_eq_getElem?, eq] at hown
        cases hk.symm.trans hown
        have hcopy : f.copy? id = some c := by rw [Farm.copy?_eq_getElem?, eq, hk]
        exact absurd eq ((Farm.id_of_copy? hcopy) ▸ ne)
      · rwa [List.getElem?_set_ne eq]

/-- The copy at a place goes through the acts that firing several matches does there. -/
theorem life_at (h : FiresAll policy ms farms farms' firings) (hc : c.At farms seat k) :
    ∃ c', c'.At farms' seat k ∧ Copy.Life c (actsAt policy ms farms seat k) c' := by
  obtain ⟨f, hf, hk⟩ := hc
  simp only [actsAt, hf, hk]
  split
  · rename_i first
    obtain ⟨f', c', hf', hc', life⟩ := h.life hf (Farm.copy?_of_getElem? hk first)
    refine ⟨c', ⟨f', hf', ?_⟩, life⟩
    obtain ⟨g, hg, same⟩ := h.sameCards.some_left hf
    cases hf'.symm.trans hg
    rwa [Farm.copy?_eq_getElem?, Farm.slot_eq_of_ids same.ids, first] at hc'
  · rename_i behind
    obtain ⟨f', hf', -, same⟩ := h.hidden.some_left hf
    exact ⟨c, ⟨f', hf', same hk behind⟩, .start⟩

end FiresAll

end Match

/-! ## Registries -/

/-- A copy stands where it stood after a list of matches was executed. -/
theorem Registry.execute_life {r r' : Registry} {event : Event} {report : Report}
    (h : r.execute farms ms event = .ok (r', farms', report)) (hc : c.At farms seat k) :
    ∃ c', c'.At farms' seat k ∧ Copy.Life c (Match.actsAt r.policy ms farms seat k) c' :=
  (Registry.execute_eq_ok_iff.1 h).1.life_at hc

theorem Copy.At.unique (h : c.At farms seat k) (h' : c'.At farms seat k) : c = c' := by
  obtain ⟨f, hf, hk⟩ := h
  obtain ⟨f', hf', hk'⟩ := h'
  cases hf.symm.trans hf'
  exact Option.some.inj (hk.symm.trans hk')

namespace Copy.Stands

variable {c₀ : Copy} {past : List Act}

theorem at_place (h : Stands c₀ past farms seat k c) : c.At farms seat k := by
  cases h with
  | start _ hc => exact hc
  | execute _ _ hc => exact hc
  | change _ _ hc => exact hc

/-- A copy that stands somewhere lives, whatever was executed. -/
theorem life (h : Stands c₀ past farms seat k c) : Life c₀ past c := by
  induction h with
  | start life _ => exact life
  | execute hbefore hexecute hc ih =>
    obtain ⟨c', hc', life⟩ := Registry.execute_life hexecute hbefore.at_place
    cases hc.unique hc'
    exact ih.trans life
  | change _ life _ ih => exact ih.trans life

end Copy.Stands

end Homestead
