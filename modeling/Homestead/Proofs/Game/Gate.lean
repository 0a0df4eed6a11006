import Homestead.Proofs.Game.Lives

/-!
# The gate of a play

`Registry.performPlay` and `Game.performPlay` play a card in place, one change after the other: the
prices are paid on the live store, the copy joins the farm, its effects fire, it is registered, and
what the card brings is installed. They compute what `Registry.play` and `Game.play` compute
(`Registry.run_performPlay`, `Game.run_performPlay`), so a refused play changed nothing, and they
are what a move does (`Game.step_play`).

In a reachable game the next identifier is free, and a play is refused exactly where `Game.canPlay`
says so (`play_gate`).
-/

namespace Homestead

namespace InPlace

variable {α : Type}

/-- Runs a program on a seat's farm; without that farm it is a fault. -/
def atFarm (seat : Seat) (p : InPlace Farm α) : InPlace (Registry × Seating Farm) α :=
  fun (r, farms) => do
    let f ← farms.get seat
    (fun x => (x.1, r, farms.set seat x.2)) <$> p.run f

end InPlace

open InPlace

/-! ## Playing in place -/

/-- Applies every effect of a copy that fires for an event. -/
def Copy.performTrigger (event : Event) (policy : PaymentPolicy) :
    InPlace (Copy × Store) Outcome := do
  let (c, _) ← get
  performAll policy (c.answers event)

/-- Takes the prices and the flat cost of a card. -/
def Card.pays (card : Card) : InPlace Store Unit := do
  changeEach (fun s p => p.pay s) card.prices
  changeEach (fun s entry => s.withdraw entry.1 entry.2) card.flatCost.entries

/-- Gives the points, the cooking ratios and the storage of a card. -/
def Card.installs (card : Card) : InPlace Store Unit := do
  change fun s => if card.points = 0 then pure s else s.addPoints card.points
  change fun s => pure (if card.cooking.isEmpty then s else s.addKitchen card.id)
  changeEach (fun s entry => pure (s.addRatio entry.1 entry.2)) card.cooking
  changeEach (fun s entry => s.addCapacity entry.1 entry.2) card.storage

namespace Registry

/-- Plays a card that may be played. -/
def acquires (seat : Seat) (card : Card) (id : CopyId) (policy : PaymentPolicy) :
    InPlace (Registry × Seating Farm) Played := do
  atFarm seat (atStore card.pays)
  atFarm seat (change fun f => pure (f.add (.new id card)))
  let outcome ← atFarm seat (atCopy id (Copy.performTrigger (.new .immediate seat) policy))
  change fun (r, farms) => pure (r.register farms seat id, farms)
  atFarm seat (atStore card.installs)
  return ⟨id, outcome.getD .nothing⟩

/-- Plays a card for a seat as a copy with a given identifier, or refuses to. -/
def performPlay (seat : Seat) (card : Card) (id : CopyId) :
    InPlace (Registry × Seating Farm) (Except Refusal Played) := do
  let (r, farms) ← get
  match farms.get? seat with
  | none => return .error (.invalidInput (.noFarm seat))
  | some f =>
    if f.owns id then return .error (.invalidInput (.alreadyOwned seat id))
    else
      match ← look fun _ => card.check f with
      | .error cause => return .error cause
      | .ok () => return .ok (← acquires seat card id r.policy)

end Registry

/-- Plays a card for a seat as the next copy, or refuses to. -/
def Game.performPlay (seat : Seat) (card : Card) : InPlace Game (Except Refusal Played) := do
  let g ← get
  match ← within (fun g => (g.registry, g.farms))
      (fun x g => { g with registry := x.1, farms := x.2 })
      (Registry.performPlay seat card ⟨g.nextCopy⟩) with
  | .error cause => return .error cause
  | .ok p =>
    change fun g => return { g with nextCopy := ← g.nextCopy.plus 1 }
    return .ok p

variable {policy : PaymentPolicy} {seat : Seat} {card : Card} {id : CopyId} {farms : Seating Farm}
  {f : Farm} {r : Registry} {c c' : Copy} {s : Store}

theorem Copy.run_performTrigger (event : Event) (c : Copy) (s : Store) :
    (performTrigger event policy).run (c, s) =
      (fun x => (x.2.2, x.1, x.2.1)) <$> c.trigger event policy s :=
  run_performAll (c.answers event) c s

theorem Card.does_pays (card : Card) : Does card.pays card.payFor :=
  .seq (.changeEach _ _) (.changeEach _ _)

theorem Card.does_installs (card : Card) : Does card.installs card.install := by
  rw [funext card.install_eq]
  exact .seq (.change _) (.seq (.change _) (.seq (.changeEach _ _) (.changeEach _ _)))

namespace InPlace

variable {α β : Type}

/-- What follows a program on a seat's farm starts from the changed farm. -/
theorem run_atFarm_bind (hf : farms.get? seat = some f) (p : InPlace Farm α)
    (k : α → InPlace (Registry × Seating Farm) β) (r : Registry) :
    (atFarm seat p >>= k).run (r, farms) =
      p.run f >>= fun x => (k x.1).run (r, farms.set seat x.2) := by
  have hrun : (atFarm seat p).run (r, farms) =
      (fun x => (x.1, r, farms.set seat x.2)) <$> p.run f := by
    change (farms.get seat >>= fun f => _) = _
    rw [Seating.get, hf]
    rfl
  rw [StateT.run_bind, hrun]
  cases p.run f <;> rfl

end InPlace

/-- A play in place does to the registry and the farm what a play computes. -/
theorem Registry.run_acquires (hf : farms.get? seat = some f) (new : f.owns id = false)
    (r : Registry) :
    (acquires seat card id policy).run (r, farms) =
      (fun x => (x.2, r.register (farms.set seat x.1) seat id, farms.set seat x.1)) <$>
        f.play seat card id policy := by
  have hnew : id ∉ f.ids := fun owned => by
    rw [Farm.owns_iff.2 owned] at new
    cases new
  rw [acquires, run_atFarm_bind hf, run_atStore card.does_pays, Farm.play]
  cases card.payFor f.store with
  | error fault => rfl
  | ok paid =>
    have hf₁ := Seating.get?_set_self hf { f with store := paid }
    have hf₂ := Seating.get?_set_self hf₁ ({ f with store := paid }.add (.new id card))
    have hnew₁ : (Copy.new id card).id ∉ { f with store := paid }.ids := hnew
    have hadd : (change fun f : Farm => pure (f.add (.new id card))).run { f with store := paid } =
        .ok ((), { f with store := paid }.add (.new id card)) := rfl
    simp only [Checked.map_ok, Checked.ok_bind]
    rw [run_atFarm_bind hf₁, hadd, Checked.ok_bind, run_atFarm_bind hf₂]
    have hfired := run_atCopy (Farm.copy?_add_self hnew₁)
      (Copy.performTrigger (.new .immediate seat) policy)
    rw [Farm.store_add, Copy.run_performTrigger] at hfired
    change (atCopy id _).run _ = _ at hfired
    rw [hfired]
    cases htrigger : (Copy.new id card).trigger (.new .immediate seat) policy paid with
    | error fault => rfl
    | ok x =>
      obtain ⟨c', s', o⟩ := x
      obtain ⟨hid, hcard⟩ := (Copy.applyAll_eq_ok_iff.1 htrigger).id_card
      have hreplace := Farm.replace_add hnew₁ hid hcard s'
      simp only [Checked.map_ok, Checked.ok_bind, hreplace, Seating.set_set]
      have hf₃ := Seating.get?_set_self hf ({ f with store := s' }.add c')
      rw [(Does.change _).run_bind, pure_bind, run_atFarm_bind hf₃,
        run_atStore card.does_installs, Farm.store_add]
      cases card.install s' with
      | error fault => rfl
      | ok installed =>
        have hsame := Farm.add_store { f with store := s' } c' installed
        simp only [Checked.map_ok, Checked.ok_bind, hsame, Seating.set_set]
        have hids : ({ f with store := s' }.add c').ids =
            ({ f with store := installed }.add c').ids := (congrArg Farm.ids hsame :)
        rw [register_congr hf hids]
        rfl

/-- A refused play was refused before the first change. -/
theorem Registry.run_performPlay (r : Registry) (farms : Seating Farm) (seat : Seat) (card : Card)
    (id : CopyId) :
    (performPlay seat card id).run (r, farms) =
      leaving (r, farms) (fun x => (x.2.2, x.1, x.2.1)) <$> r.play farms seat card id := by
  rw [performPlay, StateT.run_bind, StateT.run_get, Registry.play]
  simp only [pure_bind]
  cases hf : farms.get? seat with
  | none => rfl
  | some f =>
    cases owned : f.owns id with
    | true =>
      simp only [owned, if_true]
      rfl
    | false =>
      simp only [owned, Bool.false_eq_true, if_false, StateT.run_bind, run_look]
      cases card.check f with
      | error fault => rfl
      | ok checked =>
        cases checked with
        | error cause => rfl
        | ok allowed =>
          simp only [Checked.map_ok, Checked.ok_bind, StateT.run_bind, run_acquires hf owned]
          cases f.play seat card id r.policy <;> rfl

theorem Game.run_performPlay (g : Game) (seat : Seat) (card : Card) :
    (performPlay seat card).run g =
      leaving g (fun x => (x.2, x.1)) <$> g.play seat card := by
  rw [performPlay, StateT.run_bind, StateT.run_get, pure_bind, Game.play, StateT.run_bind,
    run_within, Registry.run_performPlay]
  cases g.registry.play g.farms seat card ⟨g.nextCopy⟩ with
  | error fault => rfl
  | ok result =>
    cases result with
    | error cause => rfl
    | ok played =>
      simp only [Checked.map_ok, Checked.ok_bind, leaving, (Does.change _).run_bind]
      cases g.nextCopy.plus 1 <;> rfl

/-- The turn of a play. -/
def Turn.ofPlay : Except Refusal Played → Turn
  | .ok p => .played p
  | .error cause => .refused cause

/-- The move is the play in place. -/
theorem Game.step_play (g : Game) (seat : Seat) (card : Card) :
    g.step (.play seat card) =
      (fun x => (x.2, Turn.ofPlay x.1)) <$> (performPlay seat card).run g := by
  rw [Game.run_performPlay, step]
  rcases g.play seat card with fault | cause | ⟨g', p⟩ <;> rfl

/-- What such a program refuses to do leaves the state as it was. -/
theorem InPlace.eq_of_refused {σ α β : Type} {s s' : σ} {done : β → α × σ}
    {x : Checked (Except Refusal β)} {cause : Refusal}
    (h : leaving s done <$> x = .ok (.error cause, s')) : s' = s := by
  obtain ⟨result, -, h⟩ := Checked.map_eq_ok.1 h
  cases result with
  | error cause =>
    cases h
    rfl
  | ok b => cases h

/-! ## The gate -/

namespace Game

variable {g g' : Game} {turn : Turn}

theorem canPlay_eq {objection : Option Objection} (hf : g.farm? seat = some f)
    (h : card.objection? f = .ok objection) :
    g.canPlay seat card = .ok objection.isNone := by
  rw [canPlay, hf]
  change card.canPlay f = _
  rw [Card.canPlay, h]
  rfl

/-- What a play can come to where the next identifier is free. -/
inductive Gate (g : Game) (seat : Seat) (card : Card) : Game → Turn → Prop
  | noFarm : g.farm? seat = none → g.canPlay seat card = .ok false →
    Gate g seat card g (.refused (.invalidInput (.noFarm seat)))
  | closed {f objection} : g.farm? seat = some f → g.canPlay seat card = .ok false →
    Gate g seat card g (.refused (.cannotPlay card.name objection))
  | opened {f f' p registry next} : g.farm? seat = some f → g.canPlay seat card = .ok true →
    p.copy = ⟨g.nextCopy⟩ →
    g.registry.register? (g.farms.set seat f') seat ⟨g.nextCopy⟩ = some registry →
    Gate g seat card
      { g with farms := g.farms.set seat f', registry := registry, nextCopy := next } (.played p)

theorem InOrder.gate (hg : g.InOrder) (h : g.step (.play seat card) = .ok (g', turn)) :
    g.Gate seat card g' turn := by
  obtain ⟨result, hplay, heq⟩ := Checked.bind_eq_ok.1 h
  obtain ⟨registered, hregistry, hplay⟩ := Checked.bind_eq_ok.1 hplay
  have hplays := Registry.play_eq_ok_iff.1 hregistry
  cases hplays with
  | noFarm hf =>
    cases Checked.pure_eq_ok.1 hplay
    cases Checked.pure_eq_ok.1 heq
    refine .noFarm hf ?_
    rw [canPlay, farm?, hf]
    rfl
  | alreadyOwned hf owned =>
    exact absurd (idsOf_eq hf ▸ Farm.owns_iff.1 owned) (hg.next_fresh seat)
  | objected hf _ hobjection =>
    cases Checked.pure_eq_ok.1 hplay
    cases Checked.pure_eq_ok.1 heq
    exact .closed hf (canPlay_eq hf hobjection)
  | played hf _ hobjection hplayed =>
    obtain ⟨next, -, hplay⟩ := Checked.bind_eq_ok.1 hplay
    cases Checked.pure_eq_ok.1 hplay
    cases Checked.pure_eq_ok.1 heq
    obtain ⟨-, f', -, hset, hout, hregister⟩ := hg.of_plays (Registry.play_eq_ok_iff.1 hregistry)
    rw [hset] at hregister ⊢
    exact .opened hf (canPlay_eq hf hobjection) hplayed.copy_eq hregister

/-- What a play that the gate lets through changes. -/
structure PlayedAt (g : Game) (seat : Seat) (p : Played) (g' : Game) : Prop where
  copy : p.copy = ⟨g.nextCopy⟩
  registered : g'.registry.copiesOf seat = g.registry.copiesOf seat ++ [p.copy]
  stats : g'.registry.stats = { g.registry.stats with registered := g'.registry.size }
  others : ∀ other, seat ≠ other →
    g'.farm? other = g.farm? other ∧ g'.registry.copiesOf other = g.registry.copiesOf other

theorem Gate.playedAt {p : Played} (h : g.Gate seat card g' (.played p)) :
    g.PlayedAt seat p g' := by
  cases h with
  | @opened f f' p registry next hf _ hcopy hregister =>
    have hcopies := Registry.copiesOf_register? hregister
    obtain ⟨-, -, rfl⟩ := Registry.register?_eq_some_iff.1 hregister
    refine ⟨hcopy, ?_, rfl, fun other ne => ⟨Seating.get?_set_ne ne f', ?_⟩⟩
    · rw [hcopy]
      exact (hcopies seat).trans (if_pos rfl)
    · exact (hcopies other).trans (if_neg ne)

end Game

/-- The gate and the play agree. In a reachable game a play goes through exactly where the gate is
open; it is invalid exactly without a farm, and cannot be made exactly where a farm meets a closed
gate. What is played so is what is played in place, one change after the other, in a game and on
farms of any kind; so a refused play changes nothing, in place neither. -/
theorem play_gate :
    (∀ {setup log g seat card g' turn}, Game.History Farm.SameCopies setup log g →
      g.step (.play seat card) = .ok (g', turn) →
        (∃ allowed, g.canPlay seat card = .ok allowed) ∧
          ((∃ p, turn = .played p) ↔ g.canPlay seat card = .ok true) ∧
          ((∃ misuse, turn = .refused (.invalidInput misuse)) ↔ g.farm? seat = none) ∧
          ((∃ name objection, turn = .refused (.cannotPlay name objection)) ↔
            (g.farm? seat).isSome ∧ g.canPlay seat card = .ok false) ∧
          (∀ cause, turn = .refused cause → g' = g) ∧
          ∀ p, turn = .played p → g.PlayedAt seat p g') ∧
      (∀ (g : Game) seat card, g.step (.play seat card) =
        (fun x => (x.2, Turn.ofPlay x.1)) <$> (Game.performPlay seat card).run g) ∧
      (∀ (g : Game) seat card, (Game.performPlay seat card).run g =
        leaving g (fun x => (x.2, x.1)) <$> g.play seat card) ∧
      (∀ (r : Registry) farms seat card id, (Registry.performPlay seat card id).run (r, farms) =
        leaving (r, farms) (fun x => (x.2.2, x.1, x.2.1)) <$> r.play farms seat card id) ∧
      (∀ {g seat card cause g'}, (Game.performPlay seat card).run g = .ok (.error cause, g') →
        g' = g) ∧
      (∀ {r farms seat card id cause r' farms'},
        (Registry.performPlay seat card id).run (r, farms) = .ok (.error cause, r', farms') →
          r' = r ∧ farms' = farms) ∧
      ∀ {r farms seat card id f}, farms.get? seat = some f → f.owns id →
        (Registry.performPlay seat card id).run (r, farms) =
          .ok (.error (.invalidInput (.alreadyOwned seat id)), r, farms) := by
  refine ⟨fun {setup log g seat card g' turn} h hstep => ?_, Game.step_play, Game.run_performPlay,
    Registry.run_performPlay, fun h => ?_, fun h => ?_, fun {r farms seat card id f} hf owned => ?_⟩
  · have hg := (h.mono fun same => Farm.SameCopies.sameCards same).inOrder
    have hplayed : ∀ p, turn = .played p → g.PlayedAt seat p g' := by
      rintro p rfl
      exact (hg.gate hstep).playedAt
    cases hg.gate hstep with
    | noFarm hf hclosed => simp [hf, hclosed]
    | closed hf hclosed => simp [hf, hclosed]
    | opened hf hopen =>
      simp only [hf, hopen]
      simpa using hplayed
  · rw [Game.run_performPlay] at h
    exact eq_of_refused h
  · rw [Registry.run_performPlay] at h
    exact Prod.mk.inj (eq_of_refused h)
  · have hplay : r.play farms seat card id =
        .ok (.error (.invalidInput (.alreadyOwned seat id))) :=
      Registry.play_eq_ok_iff.2 (.alreadyOwned hf owned)
    rw [Registry.run_performPlay, hplay]
    rfl

/-- After a wood cutter, which was the first copy, a seasonal worker is played as the second.
Without food the carpenter's flat cost closes the gate, and nothing can be played as the first copy
again; both leave everything as it was. -/
theorem play_gate_carpenter :
    ∃ log g, Game.History Farm.SameCopies ⟨1, .strict, .empty, 2, 2⟩ log g ∧
      g.registry.copiesOf ⟨0⟩ = [⟨1⟩] ∧
      (∃ g' p, (Game.performPlay ⟨0⟩ Deck.seasonalWorker).run g = .ok (.ok p, g') ∧
        g.canPlay ⟨0⟩ Deck.seasonalWorker = .ok true ∧ g.PlayedAt ⟨0⟩ p g' ∧
        g'.registry.copiesOf ⟨0⟩ = [⟨1⟩, ⟨2⟩]) ∧
      (∃ name objection g', (Game.performPlay ⟨0⟩ Deck.carpenter).run g =
          .ok (.error (.cannotPlay name objection), g') ∧
        g.canPlay ⟨0⟩ Deck.carpenter = .ok false ∧ g' = g) ∧
      (Registry.performPlay ⟨0⟩ Deck.seasonalWorker ⟨1⟩).run (g.registry, g.farms) =
        .ok (.error (.invalidInput (.alreadyOwned ⟨0⟩ ⟨1⟩)), g.registry, g.farms) := by
  have started : Game.History Farm.SameCopies ⟨1, .strict, .empty, 2, 2⟩ [] _ := .start rfl
  have played := started.move (rfl : Game.step _ (.play ⟨0⟩ Deck.woodCutter) = .ok (_, _))
  obtain ⟨gate, -, -, -, unchanged, -, reused⟩ := play_gate
  refine ⟨_, _, played, rfl, ⟨_, _, rfl, ?_⟩, ?_, reused rfl rfl⟩
  · obtain ⟨-, hopen, -, -, -, hplayed⟩ :=
      gate played (rfl : Game.step _ (.play ⟨0⟩ Deck.seasonalWorker) = .ok (_, _))
    exact ⟨hopen.1 ⟨_, rfl⟩, hplayed _ rfl, (hplayed _ rfl).registered⟩
  · obtain ⟨-, -, -, hclosed, -⟩ :=
      gate played (rfl : Game.step _ (.play ⟨0⟩ Deck.carpenter) = .ok (_, _))
    refine ⟨_, _, _, rfl, (hclosed.1 ⟨_, _, rfl⟩).2, ?_⟩
    exact unchanged (rfl : (Game.performPlay ⟨0⟩ Deck.carpenter).run _ = .ok (.error _, _))

end Homestead
