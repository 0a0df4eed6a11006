import Homestead.Proofs.Acts
import Homestead.Proofs.Copy.Limits
import Homestead.Proofs.Game.Ownership
import Homestead.Proofs.InPlace

/-!
# The lives of the copies of a game

The log of a game says what each copy went through: `Entry.acts` lists the acts on a seat's copy of
an identifier, and `Entry.fired` the effects that were reported as applied. A move changes the
copies by these acts and no more (`Game.Steps.passes`), and as no identifier is handed out twice,
every copy that a game owns, or owned, lived just through the acts that the log has for it
(`Game.History.lived`).
-/

namespace Homestead

/-- The two farms own the same copies with the same counters; the stores may differ. -/
structure Farm.SameCopies (f g : Farm) : Prop where
  occupations : g.occupations = f.occupations
  improvements : g.improvements = f.improvements

theorem Farm.SameCopies.copies {f g : Farm} (h : f.SameCopies g) : g.copies = f.copies := by
  unfold Farm.copies
  rw [h.occupations, h.improvements]

theorem Farm.SameCopies.sameCards {f g : Farm} (h : f.SameCopies g) : f.SameCards g :=
  ⟨by rw [h.occupations], by rw [h.improvements]⟩

/-- A seat's copy of an identifier. -/
def Game.copy? (g : Game) (seat : Seat) (id : CopyId) : Option Copy :=
  (g.farm? seat).bind fun f => f.copy? id

/-! ## Acts -/

/-- The acts on a seat's copy of an identifier when events are dispatched in order. -/
def Game.acts (seat : Seat) (id : CopyId) : List (Seat × Event) → Game → List Act
  | [], _ => []
  | (place, event) :: rest, g =>
    Match.actsAll g.registry.policy seat id (g.registry.find g.farms place event) g.farms ++
      match g.trigger place event with
      | .ok (g, _) => acts seat id rest g
      | .error _ => []

/-- The acts on the new copy when a card is played. -/
def Farm.playActs (f : Farm) (seat : Seat) (card : Card) (id : CopyId) (policy : PaymentPolicy) :
    List Act :=
  match card.payFor f.store with
  | .ok paid =>
    Copy.acts policy ((Copy.new id card).answers (.new .immediate seat)) (.new id card) paid
  | .error _ => []

namespace Entry

/-- The acts on a seat's copy of an identifier in a move. -/
def acts (seat : Seat) (id : CopyId) : Entry → List Act
  | .move g (.play place card) (.played p) =>
    if place = seat ∧ p.copy = id then
      match g.farm? seat with
      | some f => f.playActs seat card id g.registry.policy
      | none => []
    else []
  | .move g .beginRound (.dispatched _) =>
    match g.round.plus 1 with
    | .ok round =>
      (if (g.copy? seat id).isSome then [.reset] else []) ++
        (g.begun round).acts seat id (Move.beginRound.events g)
    | .error _ => []
  | .move g m (.dispatched _) => g.acts seat id (m.events g)
  | _ => []

/-- The effects of a seat's copy that a move reported as applied. -/
def fired (seat : Seat) (id : CopyId) : Entry → List Nat
  | .move _ (.play place _) (.played p) =>
    if place = seat ∧ p.copy = id then p.outcome.applied else []
  | .move _ _ (.dispatched reports) => reports.flatMap fun r => firedOf seat id r.firings
  | _ => []

end Entry

/-- The acts that a log has for a seat's copy of an identifier, oldest first. -/
def actsOn (seat : Seat) (id : CopyId) (log : List Entry) : List Act :=
  log.flatMap (Entry.acts seat id)

namespace Game

/-- What acts did to a seat's copy of an identifier, where `next` is the one to be handed out. -/
inductive Passes (next id : CopyId) (acts : List Act) : Option Copy → Option Copy → Prop
  | kept {c c'} : Copy.Life c acts c' → Passes next id acts (some c) (some c')
  | left {c} : acts = [] → Passes next id acts (some c) none
  | joined {c} : id = next → Copy.Life (.new id c.card) acts c → Passes next id acts none (some c)
  | absent : acts = [] → Passes next id acts none none

/-- Every copy lived through the acts that the log has for it. -/
structure Lived (log : List Entry) (g : Game) : Prop where
  owned : ∀ {seat id c}, g.copy? seat id = some c →
    Copy.Life (.new id c.card) (actsOn seat id log) c
  ever : ∀ seat id, actsOn seat id log = [] ∨
    ∃ card c, Copy.Life (.new id card) (actsOn seat id log) c
  unissued : ∀ {seat id}, g.nextCopy.toNat ≤ id.number.toNat → actsOn seat id log = []

variable {g g' : Game} {seat : Seat} {id next : CopyId} {events : List (Seat × Event)}
  {reports : List Report} {move : Move} {turn : Turn} {f f' : Farm} {c c' : Copy}
  {acts : List Act} {x : Option Copy}

theorem copy?_isSome : (g.copy? seat id).isSome ↔ id ∈ g.idsOf seat := by
  rw [copy?, idsOf]
  cases g.farm? seat with
  | none => simp
  | some f => exact Farm.owns_iff

theorem copy?_eq_none_iff : g.copy? seat id = none ↔ id ∉ g.idsOf seat := by
  rw [← copy?_isSome, Option.not_isSome_iff_eq_none]

theorem Passes.same (none : acts = []) (x : Option Copy) : Passes next id acts x x := by
  subst none
  cases x with
  | none => exact .absent rfl
  | some c => exact .kept .start

/-! ## Dispatching -/

namespace Dispatches

theorem acts_cons {event : Event} {report : Report} (h : g.trigger seat event = .ok (g', report))
    (place : Seat) (id : CopyId) (rest : List (Seat × Event)) :
    g.acts place id ((seat, event) :: rest) =
      Match.actsAll g.registry.policy place id (g.registry.find g.farms seat event) g.farms ++
        g'.acts place id rest := by
  rw [Game.acts, h]

/-- A copy goes through the acts that dispatching does on it. -/
theorem life (h : Dispatches events g g' reports) (hc : g.copy? seat id = some c) :
    ∃ c', g'.copy? seat id = some c' ∧ Copy.Life c (g.acts seat id events) c' := by
  induction h generalizing c with
  | nil => exact ⟨c, hc, .start⟩
  | cons hfires hmoment _ ih =>
    obtain ⟨f, hf, hc⟩ := Option.bind_eq_some_iff.1 hc
    obtain ⟨f₁, c₁, hf₁, hc₁, first⟩ := hfires.life hf hc
    obtain ⟨c', hc', rest⟩ := ih (Option.bind_eq_some_iff.2 ⟨f₁, hf₁, hc₁⟩)
    rw [acts_cons (trigger_eq_ok_iff.2 ⟨_, hfires, hmoment, rfl⟩)]
    exact ⟨c', hc', first.trans rest⟩

theorem acts_nil (h : Dispatches events g g' reports) (absent : id ∉ g.idsOf seat) :
    g.acts seat id events = [] := by
  induction h with
  | nil => rfl
  | @cons place event rest g farms report g' reports hfires hmoment _ ih =>
    have hafter : id ∉ Game.idsOf
        { g with farms := farms, registry := g.registry.tally report } seat := by
      rwa [idsOf_congr hfires.sameCards seat]
    rw [acts_cons (trigger_eq_ok_iff.2 ⟨_, hfires, hmoment, rfl⟩), ih hafter,
      hfires.actsAll_nil fun f hf => idsOf_eq hf ▸ absent]
    rfl

theorem applied_acts (h : Dispatches events g g' reports) (seat : Seat) (id : CopyId) :
    (g.acts seat id events).filterMap Act.applied? =
      reports.flatMap fun r => firedOf seat id r.firings := by
  induction h with
  | nil => rfl
  | cons hfires hmoment _ ih =>
    rw [acts_cons (trigger_eq_ok_iff.2 ⟨_, hfires, hmoment, rfl⟩), List.filterMap_append, ih,
      hfires.applied_acts, List.flatMap_cons]

theorem passes (h : Dispatches events g g' reports) (seat : Seat) (id : CopyId) :
    Passes next id (g.acts seat id events) (g.copy? seat id) (g'.copy? seat id) := by
  cases hc : g.copy? seat id with
  | some c =>
    obtain ⟨c', hc', life⟩ := h.life hc
    rw [hc']
    exact .kept life
  | none =>
    have absent := copy?_eq_none_iff.1 hc
    rw [copy?_eq_none_iff.2 (idsOf_congr h.sameCards seat ▸ absent)]
    exact .absent (h.acts_nil absent)

end Dispatches

/-! ## Moves -/

theorem copy?_set (h : g.farm? seat = some f) (hfarms : g'.farms = g.farms.set seat f')
    (other : Seat) (id : CopyId) :
    g'.copy? other id = if seat = other then f'.copy? id else g.copy? other id := by
  rw [copy?, farm?, hfarms]
  split
  · rename_i eq
    subst eq
    rw [Seating.get?_set_self h]
    rfl
  · rename_i ne
    rw [Seating.get?_set_ne ne]
    rfl

theorem copy?_eq (h : g.farm? seat = some f) (id : CopyId) : g.copy? seat id = f.copy? id := by
  rw [copy?, h]
  rfl

/-- A copy that joins a farm where identifiers do not repeat leaves the others as they are. -/
theorem copy?_add_ne (nodup : (f.add c).ids.Nodup) (ne : id ≠ c.id) :
    (f.add c).copy? id = f.copy? id := by
  have hsublist : f.ids.Nodup := (((f.ids_add_perm c).nodup_iff.1 nodup).of_append_left)
  refine Farm.copy?_congr hsublist nodup fun d hd => ?_
  rw [Farm.mem_copies_add]
  refine ⟨fun h => h.resolve_right ?_, .inl⟩
  rintro rfl
  exact ne hd.symm

/-- A copy that leaves a farm where identifiers do not repeat leaves the others as they are. -/
theorem copy?_remove? (nodup : f.ids.Nodup) (h : f.remove? id = some (c, f')) (other : CopyId) :
    f'.copy? other = if other = id then none else f.copy? other := by
  obtain ⟨-, hcopies, -⟩ := Farm.of_remove?_eq_some h
  have hids := Farm.ids_of_remove? h
  split
  · rename_i eq
    subst eq
    rw [Farm.copy?_eq_none_iff, hids]
    exact nodup.not_mem_erase
  · rename_i ne
    refine Farm.copy?_congr nodup (hids ▸ nodup.erase id) fun d hd => ?_
    rw [hcopies, List.mem_eraseP_of_neg]
    simpa [hd] using ne

/-- A move on one seat's farm that does nothing to a copy but take it away. -/
theorem Passes.of_set {place : Seat} (hf : g.farm? place = some f)
    (hfarms : g'.farms = g.farms.set place f') (none : acts = [])
    (h : Passes next id [] (f.copy? id) (f'.copy? id)) :
    Passes next id acts (g.copy? seat id) (g'.copy? seat id) := by
  subst none
  rw [copy?_set hf hfarms]
  split
  · rename_i eq
    subst eq
    rwa [copy?_eq hf]
  · exact .same rfl _

theorem copy?_begun (g : Game) (round : Count) (seat : Seat) (id : CopyId) :
    (g.begun round).copy? seat id = (g.copy? seat id).map Copy.resetUses := by
  rw [copy?, farm?, begun, Seating.get?_map, copy?, farm?]
  cases g.farms.get? seat with
  | none => rfl
  | some f =>
    have hslot : f.startRound.slot id = f.slot id :=
      Farm.slot_eq_of_ids (Farm.SameCards.startRound f).ids id
    change f.startRound.copy? id = (f.copy? id).map _
    rw [Farm.copy?_eq_getElem?, hslot, Farm.copy?_eq_getElem?, ← List.getElem?_map]
    simp [Farm.startRound, Farm.resetUses, Farm.copies]

namespace Steps

/-- A played copy went through the acts of the moment of play, and no other copy changed. -/
theorem passes_played {card : Card} {p : Played} {registry : Registry} {farms : Seating Farm}
    {place : Seat} (hg : g.InOrder)
    (hplays : g.registry.Plays g.farms place card ⟨g.nextCopy⟩ (.ok (registry, farms, p)))
    (hfarms : g'.farms = farms) (seat : Seat) (id : CopyId) :
    Passes ⟨g.nextCopy⟩ id (Entry.acts seat id (.move g (.play place card) (.played p)))
      (g.copy? seat id) (g'.copy? seat id) := by
  obtain ⟨f, f', hf, hset, hplay, -⟩ := hg.of_plays hplays
  have hcopy := hplay.copy_eq
  have hnodup : f'.ids.Nodup := by
    rw [hplay.ids_perm.nodup_iff, ← idsOf_eq hf]
    exact (hg.ids_nodup place).append (List.nodup_singleton _) (by simpa using hg.next_fresh place)
  rw [copy?_set hf (hfarms.trans hset)]
  obtain @⟨paid, fired, installed, copy, o, hpaid, happlies, hinstall⟩ := hplay
  have hid : copy.id = ⟨g.nextCopy⟩ := happlies.id_card.1
  by_cases aim : place = seat ∧ id = ⟨g.nextCopy⟩
  · obtain ⟨rfl, rfl⟩ := aim
    have hnew : copy.id ∉ { f with store := installed }.ids := by
      rw [hid]
      exact idsOf_eq hf ▸ hg.next_fresh place
    have hjoined := Farm.copy?_add_self hnew
    rw [hid] at hjoined
    rw [if_pos rfl, hjoined, copy?_eq_none_iff.2 (hg.next_fresh place)]
    refine .joined rfl ?_
    simp only [Entry.acts, and_self, if_true, hf, Farm.playActs, hpaid]
    rw [happlies.id_card.2]
    exact .of_applies happlies
  · have hnone : Entry.acts seat id (.move g (.play place card) (.played ⟨⟨g.nextCopy⟩, o⟩)) = [] :=
      if_neg fun both => aim ⟨both.1, both.2.symm⟩
    rw [hnone]
    by_cases eq : place = seat
    · subst eq
      have ne : id ≠ copy.id := fun h => aim ⟨rfl, h.trans hid⟩
      rw [if_pos rfl, copy?_add_ne hnodup ne, copy?_eq hf]
      exact .same rfl _
    · rw [if_neg eq]
      exact .same rfl _

/-- A move does to the copies what its entry in the log says. -/
theorem passes (hg : g.InOrder) (h : g.Steps move g' turn) (seat : Seat) (id : CopyId) :
    Passes ⟨g.nextCopy⟩ id (Entry.acts seat id (.move g move turn)) (g.copy? seat id)
      (g'.copy? seat id) := by
  cases h with
  | refused => exact .same (by cases move <;> rfl) _
  | played hplays => exact passes_played hg hplays rfl seat id
  | @discarded place out f c f' hf hremove =>
    refine .of_set hf rfl rfl ?_
    rw [copy?_remove? (idsOf_eq hf ▸ hg.ids_nodup place) hremove]
    split
    · cases f.copy? id with
      | none => exact .absent rfl
      | some c => exact .left rfl
    · exact .same rfl _
  | @discardedAll place f hf =>
    refine .of_set hf rfl rfl ?_
    change Passes _ _ _ _ none
    cases f.copy? id with
    | none => exact .absent rfl
    | some c => exact .left rfl
  | @cooked place r n f f' food hf hcook =>
    have hf' : { f with store := (f.store.cook r n).1 } = f' := congrArg Prod.fst hcook
    have hsame : f'.copy? id = f.copy? id := by
      rw [← hf']
      simp only [Farm.copy?, Farm.copies]
    refine .of_set hf rfl rfl ?_
    rw [hsame]
    exact .same rfl _
  | @dispatched move g' reports isDispatch hd =>
    have hacts : Entry.acts seat id (.move g move (.dispatched reports)) =
        g.acts seat id (move.events g) := by
      cases move with
      | beginRound => cases isDispatch
      | _ => rfl
    rw [hacts]
    exact hd.passes seat id
  | @roundBegun round g' reports hround hd =>
    simp only [Entry.acts, hround]
    cases hc : g.copy? seat id with
    | none =>
      have hpass : Passes ⟨g.nextCopy⟩ id _ _ _ := hd.passes seat id
      rwa [copy?_begun, hc] at hpass
    | some c =>
      have hbegun : (g.begun round).copy? seat id = some c.resetUses := by
        rw [copy?_begun, hc]
        rfl
      obtain ⟨c', hc', life⟩ := hd.life hbegun
      rw [hc']
      exact .kept ((Copy.Life.reset c).trans life)
  | cleared => exact .same rfl _
  | rebuilt => exact .same rfl _

/-- The acts of a move that applied an effect are those that the move reported. -/
theorem applied_acts (h : g.Steps move g' turn) (seat : Seat) (id : CopyId) :
    (Entry.acts seat id (.move g move turn)).filterMap Act.applied? =
      Entry.fired seat id (.move g move turn) := by
  cases h with
  | refused => cases move <;> rfl
  | played hplays =>
    cases hplays with
    | played hf _ _ hplay =>
      obtain ⟨hpaid, happlies, -⟩ := hplay
      simp only [Entry.acts, Entry.fired]
      split
      · rename_i aim
        obtain ⟨rfl, rfl⟩ := aim
        simp only [farm?, hf, Farm.playActs, hpaid]
        exact happlies.applied_acts
      · rfl
  | dispatched isDispatch hd =>
    cases move with
    | beginRound => cases isDispatch
    | trigger | triggerAll | act | endTurn | harvest => exact hd.applied_acts seat id
    | _ => cases isDispatch
  | roundBegun hround hd =>
    simp only [Entry.acts, Entry.fired, hround]
    rw [List.filterMap_append, hd.applied_acts]
    split <;> rfl
  | _ => rfl

end Steps

/-! ## Histories -/

theorem actsOn_concat (seat : Seat) (id : CopyId) (log : List Entry) (e : Entry) :
    actsOn seat id (log ++ [e]) = actsOn seat id log ++ e.acts seat id := by
  rw [actsOn, List.flatMap_append, List.flatMap_singleton, actsOn]

namespace Lived

variable {log : List Entry}

theorem started {setup : Setup} (h : start setup = .ok g) : g.Lived [] := by
  obtain ⟨hcopies, -, -⟩ := of_start h
  refine ⟨fun {seat id c} hc => ?_, fun _ _ => .inl rfl, fun _ => rfl⟩
  obtain ⟨f, hf, hc⟩ := Option.bind_eq_some_iff.1 hc
  have hmem := Farm.mem_of_copy? hc
  rw [hcopies hf] at hmem
  cases hmem

/-- A move carries every life on. -/
theorem moved (past : g.Lived log) (hg : g.InOrder) (h : g.Steps move g' turn) :
    g'.Lived (log ++ [.move g move turn]) := by
  refine ⟨fun {seat id c} hc => ?_, fun seat id => ?_, fun {seat id} hid => ?_⟩
  all_goals
    have hpass := h.passes hg seat id
    rw [actsOn_concat]
    generalize hbefore : g.copy? seat id = before, hafter : g'.copy? seat id = after at hpass
  · rw [hafter] at hc
    subst hc
    cases hpass with
    | kept life =>
      have lived := past.owned hbefore
      rw [life.id_card.2]
      exact lived.trans life
    | joined eq life =>
      rw [past.unissued (by rw [eq])]
      exact life
  · cases hpass with
    | kept life => exact .inr ⟨_, _, (past.owned hbefore).trans life⟩
    | joined eq life =>
      rw [past.unissued (by rw [eq])]
      exact .inr ⟨_, _, life⟩
    | left none | absent none =>
      rw [none, List.append_nil]
      exact past.ever seat id
  · rw [past.unissued (Nat.le_trans h.nextCopy_le hid), List.nil_append]
    cases hpass with
    | left none | absent none => exact none
    -- an identifier that is still to be handed out has no copy
    | kept | joined =>
      have howned := copy?_isSome.1 (by rw [hafter]; rfl)
      exact absurd ((h.inOrder hg).lt_next howned) (Nat.not_lt.2 hid)

theorem edited (past : g.Lived log) (hf : g.farm? seat = some f) (same : f.SameCopies f') :
    (g.withFarm seat f').Lived (log ++ [.edit seat]) := by
  have hcopy : ∀ other id, (g.withFarm seat f').copy? other id = g.copy? other id := by
    intro other id
    rw [copy?_set hf rfl]
    split
    · rename_i eq
      subst eq
      rw [copy?_eq hf, Farm.copy?, same.copies, Farm.copy?]
    · rfl
  have hacts : ∀ other id, actsOn other id (log ++ [.edit seat]) = actsOn other id log :=
    fun other id => (actsOn_concat ..).trans (List.append_nil _)
  refine ⟨fun {other id c} hc => ?_, fun other id => ?_, fun {other id} hid => ?_⟩
  all_goals rw [hacts]
  · exact past.owned (hcopy other id ▸ hc)
  · exact past.ever other id
  · exact past.unissued hid

end Lived

namespace History

variable {log : List Entry} {setup : Setup}

/-- Every copy of a game lived through the acts that the log has for it. -/
theorem lived (h : History Farm.SameCopies setup log g) : g.Lived log := by
  induction h with
  | start hstart => exact .started hstart
  | move hlog hstep ih =>
    have hg := (hlog.mono fun h => Farm.SameCopies.sameCards h).inOrder
    exact ih.moved hg (Steps.of_step hstep)
  | edit _ hf same ih => exact ih.edited hf same

/-- The acts that applied an effect are those that the moves reported. -/
theorem applied_acts {allowed : Farm → Farm → Prop} (h : History allowed setup log g) (seat : Seat)
    (id : CopyId) :
    (actsOn seat id log).filterMap Act.applied? = log.flatMap (Entry.fired seat id) := by
  induction h with
  | start => rfl
  | move _ hstep ih =>
    rw [actsOn_concat, List.filterMap_append, ih, (Steps.of_step hstep).applied_acts,
      List.flatMap_append, List.flatMap_singleton]
  | edit _ _ _ ih =>
    rw [actsOn_concat, List.filterMap_append, ih, List.flatMap_append, List.flatMap_singleton]
    rfl

end History

end Game

/-! ## Limits -/

/-- Limits hold over every run: over the life of a new copy, wherever it stands while registries
execute lists of matches, and for every copy of a game. What the runs report as applied is what the
limits count. The attempts are those that are made in place, one change after the other, and one
that is refused or declined leaves no trace. -/
theorem limits_hold :
    (∀ {id card acts c}, Copy.Life (.new id card) acts c → Copy.Abides card acts c) ∧
      (∀ {id card acts farms seat k c}, Copy.Stands (.new id card) acts farms seat k c →
        Copy.Abides card acts c) ∧
      (∀ {r farms ms event r' farms' report},
        Registry.execute r farms ms event = .ok (r', farms', report) →
          (∀ {seat k c}, Copy.At farms seat k c → ∃ c', Copy.At farms' seat k c') ∧
            ∀ seat id, (Match.actsAll r.policy seat id ms farms).filterMap Act.applied? =
              firedOf seat id report.firings) ∧
      (∀ {setup log g}, Game.History Farm.SameCopies setup log g → ∀ seat id,
        (∀ c, g.copy? seat id = some c → Copy.Abides c.card (actsOn seat id log) c) ∧
          (actsOn seat id log = [] ∨ ∃ card c, Copy.Abides card (actsOn seat id log) c) ∧
          (actsOn seat id log).filterMap Act.applied? = log.flatMap (Entry.fired seat id)) ∧
      (∀ {i policy c s result c' s'}, (Copy.perform i policy).run (c, s) = .ok (result, c', s') →
        result ≠ .ok true → c' = c ∧ s' = s) ∧
      (∀ {is policy c s o c' s'}, (Copy.performAll policy is).run (c, s) = .ok (o, c', s') →
        o.applied = [] → c' = c ∧ s' = s) ∧
      (∀ (c : Copy) i policy s, (Copy.perform i policy).run (c, s) =
        InPlace.leaving (c, s) (fun after => (after.isSome, after.getD (c, s))) <$>
          c.applyEffect i policy s) ∧
      ∀ {policy} is c s, (Copy.performAll policy is).run (c, s) =
        (fun x => (x.2.2, x.1, x.2.1)) <$> Copy.applyAll policy is c s := by
  refine ⟨Copy.Life.abides, fun h => h.life.abides, fun h => ⟨fun hc => ?_, ?_⟩,
    fun h seat id => ⟨fun c hc => (h.lived.owned hc).abides, ?_, h.applied_acts seat id⟩,
    Copy.eq_of_perform, Copy.eq_of_performAll, Copy.run_perform, Copy.run_performAll⟩
  · obtain ⟨c', hc', -⟩ := Registry.execute_life h hc
    exact ⟨c', hc'⟩
  · exact (Registry.execute_eq_ok_iff.1 h).1.applied_acts
  · exact (h.lived.ever seat id).imp_right fun ⟨card, c, life⟩ => ⟨card, c, life.abides⟩

/-- A table for one, who owns a carpenter. -/
def carpenterTable : Seating Farm :=
  ⟨[(Farm.new ⟨0⟩).add (.new ⟨1⟩ Deck.carpenter)], by decide, by decide⟩

/-- A carpenter gives its two wood once: reset or not, however often stale matches list it, and
played in a game. A joinery that is refused for want of wood is left as it was. -/
theorem limits_hold_carpenter :
    (∃ acts c, Copy.Life (.new ⟨1⟩ Deck.carpenter) acts c ∧
      acts = [.attempt 0 .applied, .reset, .attempt 0 .declined] ∧ applications 0 acts ≤ 1) ∧
    (∃ r' farms' report acts c, Registry.execute (.new .strict) carpenterTable
        [⟨⟨0⟩, ⟨1⟩, [0, 0, 7]⟩, ⟨⟨3⟩, ⟨1⟩, [0]⟩, ⟨⟨0⟩, ⟨1⟩, [0]⟩] (.new .onHarvest ⟨0⟩) =
          .ok (r', farms', report) ∧
      Copy.Stands (.new ⟨1⟩ Deck.carpenter) acts farms' ⟨0⟩ 0 c ∧ applications 0 acts ≤ 1 ∧
      acts.filterMap Act.applied? = firedOf ⟨0⟩ ⟨1⟩ report.firings) ∧
    (∃ log g, Game.History Farm.SameCopies ⟨1, .strict, ⟨[(.food, 1)]⟩, 2, 2⟩ log g ∧
      (actsOn ⟨0⟩ ⟨1⟩ log).filterMap Act.applied? = [0]) ∧
    ∃ cause c s, (Copy.perform 0 .strict).run (.new ⟨2⟩ Deck.joinery, .empty) =
      .ok (.error cause, c, s) ∧ c = .new ⟨2⟩ Deck.joinery ∧ s = .empty := by
  obtain ⟨life, stands, executes, histories, untouched, -⟩ := limits_hold
  refine ⟨?_, ?_, ?_, ?_⟩
  · have fresh : Copy.Life (.new ⟨1⟩ Deck.carpenter) [] _ := .start
    have applied := fresh.applyEffect (rfl : Copy.applyEffect _ 0 .strict .empty = .ok _)
    have again :=
      applied.resetUses.applyEffect (rfl : Copy.applyEffect _ 0 .strict .empty = .ok _)
    exact ⟨_, _, again, rfl, (life again).once rfl rfl⟩
  · have hrun : Registry.execute (.new .strict) carpenterTable
        [⟨⟨0⟩, ⟨1⟩, [0, 0, 7]⟩, ⟨⟨3⟩, ⟨1⟩, [0]⟩, ⟨⟨0⟩, ⟨1⟩, [0]⟩] (.new .onHarvest ⟨0⟩) =
          .ok (_, _, _) := rfl
    have new : Copy.At carpenterTable ⟨0⟩ 0 (.new ⟨1⟩ Deck.carpenter) := ⟨_, rfl, rfl⟩
    obtain ⟨kept, reported⟩ := executes hrun
    obtain ⟨c, hc⟩ := kept new
    have stood := Copy.Stands.execute (.start .start new) hrun hc
    exact ⟨_, _, _, _, _, hrun, stood, (stands stood).once rfl rfl, reported ⟨0⟩ ⟨1⟩⟩
  · have started : Game.History Farm.SameCopies ⟨1, .strict, ⟨[(.food, 1)]⟩, 2, 2⟩ [] _ :=
      .start rfl
    have played := started.move (rfl : Game.step _ (.play ⟨0⟩ Deck.carpenter) = .ok (_, _))
    exact ⟨_, _, played, (histories played ⟨0⟩ ⟨1⟩).2.2.trans rfl⟩
  · exact ⟨_, _, _, rfl, untouched (rfl : (Copy.perform 0 .strict).run _ = _) nofun⟩

end Homestead
