import Homestead.Deck
import Homestead.Proofs.Game.History
import Homestead.Proofs.Lenient

/-!
# Strict play refines lenient play

Two games that differ in the payment policy alone make a move alike, as long as strict payment
refused no effect (`Game.step_lenient`): the lenient game is the strict one under its own policy
after each move (`Game.withPolicy`), and so after a run.
-/

namespace Homestead

namespace Game

/-- The game under another payment policy. -/
def withPolicy (g : Game) (policy : PaymentPolicy) : Game :=
  { g with setup := g.setup.withPolicy policy, registry := g.registry.withPolicy policy }

variable {g g' : Game} {setup : Setup} {policy : PaymentPolicy} {seat : Seat} {event : Event}
  {events : List (Seat × Event)} {report : Report} {reports : List Report} {move : Move}
  {turn : Turn} {moves : List Move} {turns : List Turn} {card : Card} {id : CopyId} {r : Resource}
  {n : Count}

/-! ## Dispatching -/

/-- Events to which no effect was refused are dispatched alike. -/
theorem Dispatches.lenient (h : Dispatches events g g' reports)
    (clean : ∀ report ∈ reports, report.refusals = []) :
    Dispatches events (g.withPolicy .allowNegative) (g'.withPolicy .allowNegative) reports := by
  induction h with
  | nil => exact .nil
  | cons hfires hmoment _ ih =>
    obtain ⟨first, rest⟩ := List.forall_mem_cons.1 clean
    have fires := hfires.lenient fun _ hmem => Report.failure_eq_none first hmem
    exact .cons fires hmoment (ih rest)

theorem refusals_eq_nil (clean : (Turn.dispatched reports).warnings = []) :
    ∀ report ∈ reports, report.refusals = [] := by
  intro report hmem
  have none : report.warnings = [] := List.flatMap_eq_nil_iff.1 clean report hmem
  exact List.map_eq_nil_iff.1 none

theorem single_lenient (h : single (g.trigger seat event) = .ok (g', turn))
    (clean : turn.warnings = []) :
    single ((g.withPolicy .allowNegative).trigger seat event) =
      .ok (g'.withPolicy .allowNegative, turn) := by
  obtain ⟨⟨g', report⟩, htrigger, h⟩ := Checked.bind_eq_ok.1 h
  cases Checked.pure_eq_ok.1 h
  have none := refusals_eq_nil clean report List.mem_cons_self
  obtain ⟨farms, hfires, hmoment, rfl⟩ := trigger_eq_ok_iff.1 htrigger
  have fires := hfires.lenient fun _ hmem => Report.failure_eq_none none hmem
  exact Checked.bind_eq_ok.2 ⟨_, trigger_eq_ok_iff.2 ⟨farms, fires, hmoment, rfl⟩, rfl⟩

theorem several_lenient (h : several (triggerEach events g) = .ok (g', turn))
    (clean : turn.warnings = []) :
    several (triggerEach events (g.withPolicy .allowNegative)) =
      .ok (g'.withPolicy .allowNegative, turn) := by
  obtain ⟨reports, hd, rfl⟩ := dispatches_of_several h
  have lenient := hd.lenient (refusals_eq_nil clean)
  exact Checked.bind_eq_ok.2 ⟨_, triggerEach_eq_ok_iff.2 lenient, rfl⟩

/-! ## Copies and goods -/

theorem play_lenient {p : Played} (h : g.play seat card = .ok (.ok (g', p)))
    (clean : p.outcome.failure = none) :
    (g.withPolicy .allowNegative).play seat card =
      .ok (.ok (g'.withPolicy .allowNegative, p)) := by
  obtain ⟨registry, farms, p, next, hplays, hnext, heq⟩ := of_play h
  cases heq
  have lenient := Registry.play_eq_ok_iff.2 (hplays.lenient clean)
  refine Checked.bind_eq_ok.2 ⟨_, lenient, Checked.bind_eq_ok.2 ⟨next, hnext, rfl⟩⟩

theorem play_refused_withPolicy {cause : Refusal} (h : g.play seat card = .ok (.error cause))
    (policy : PaymentPolicy) : (g.withPolicy policy).play seat card = .ok (.error cause) := by
  obtain ⟨result, hplay, h⟩ := Checked.bind_eq_ok.1 h
  cases result with
  | error cause =>
    cases Checked.pure_eq_ok.1 h
    have refused := (Registry.play_eq_ok_iff.1 hplay).refused_lenient policy
    exact Checked.bind_eq_ok.2 ⟨_, Registry.play_eq_ok_iff.2 refused, rfl⟩
  | ok result =>
    obtain ⟨next, -, h⟩ := Checked.bind_eq_ok.1 h
    cases Checked.pure_eq_ok.1 h

theorem discard_withPolicy (g : Game) (policy : PaymentPolicy) (seat : Seat) (id : CopyId) :
    (g.withPolicy policy).discard seat id =
      (fun x => (x.1.withPolicy policy, x.2)) <$> g.discard seat id := by
  have same : (g.withPolicy policy).farm seat = g.farm seat := rfl
  unfold discard
  rw [same]
  cases g.farm seat with
  | error cause => rfl
  | ok f =>
    simp only [Checked.ok_bind]
    cases f.remove? id with
    | none => rfl
    | some removed =>
      have registry := g.registry.unregister_withPolicy policy seat id
      change Except.ok (Game.mk _ _ ((g.registry.withPolicy policy).unregister seat id) _ _, _) = _
      rw [registry]
      rfl

theorem discardAll_withPolicy (g : Game) (policy : PaymentPolicy) (seat : Seat) :
    (g.withPolicy policy).discardAll seat =
      (fun x => (x.1.withPolicy policy, x.2)) <$> g.discardAll seat := by
  have same : (g.withPolicy policy).farm seat = g.farm seat := rfl
  unfold discardAll
  rw [same]
  cases g.farm seat <;> rfl

theorem cook_withPolicy (g : Game) (policy : PaymentPolicy) (seat : Seat) (r : Resource)
    (n : Count) :
    (g.withPolicy policy).cook seat r n =
      (fun x => (x.1.withPolicy policy, x.2)) <$> g.cook seat r n := by
  have same : (g.withPolicy policy).farm seat = g.farm seat := rfl
  unfold cook
  rw [same]
  cases g.farm seat with
  | error cause => rfl
  | ok f =>
    rw [Checked.ok_bind, Checked.ok_bind]
    cases f.cook r n
    rfl

theorem registerEach_withPolicy (farms : Seating Farm) (copies : List (Seat × CopyId))
    (r : Registry) (policy : PaymentPolicy) :
    registerEach farms copies (r.withPolicy policy) =
      ((registerEach farms copies r).1.withPolicy policy, (registerEach farms copies r).2) := by
  induction copies generalizing r with
  | nil => rfl
  | cons e copies ih =>
    rw [registerEach, registerEach, Registry.register?_withPolicy]
    cases r.register? farms e.1 e.2 with
    | none => exact ih r
    | some r' =>
      simp only [Option.map_some, ih r']

theorem rebuildRegistry_withPolicy (g : Game) (policy : PaymentPolicy) :
    (g.withPolicy policy).rebuildRegistry =
      (g.rebuildRegistry.1.withPolicy policy, g.rebuildRegistry.2) := by
  have owned : (g.withPolicy policy).owned = g.owned := rfl
  unfold rebuildRegistry
  rw [owned]
  simp only [withPolicy, registerEach_withPolicy]

/-! ## Moves -/

/-- An operation that can be refused makes the same turn under either policy, if what it does is the
same. -/
theorem unlessRefused_withPolicy {α : Type} {made : α → Turn} {result : Except Refusal (Game × α)} :
    (g.withPolicy policy).unlessRefused made ((fun x => (x.1.withPolicy policy, x.2)) <$> result) =
      ((g.unlessRefused made result).1.withPolicy policy, (g.unlessRefused made result).2) := by
  cases result <;> rfl

/-- A move in which no effect was refused is made alike. -/
theorem step_lenient (h : g.step move = .ok (g', turn)) (clean : turn.warnings = []) :
    (g.withPolicy .allowNegative).step move = .ok (g'.withPolicy .allowNegative, turn) := by
  cases move with
  | play seat card =>
    obtain ⟨result, hplay, h⟩ := Checked.bind_eq_ok.1 h
    rcases of_unlessRefused (Checked.pure_eq_ok.1 h) with ⟨cause, rfl, rfl⟩ | ⟨p, rfl, rfl⟩
    · cases result with
      | error cause =>
        cases Checked.pure_eq_ok.1 h
        exact Checked.bind_eq_ok.2 ⟨_, play_refused_withPolicy hplay .allowNegative, rfl⟩
      | ok result => cases Checked.pure_eq_ok.1 h
    · have none : p.outcome.failure = none := by simpa [Turn.warnings] using clean
      exact Checked.bind_eq_ok.2 ⟨_, play_lenient hplay none, rfl⟩
  | discard seat id =>
    rw [step, discard_withPolicy, unlessRefused_withPolicy, Checked.pure_eq_ok.1 h]
    rfl
  | discardAll seat =>
    rw [step, discardAll_withPolicy, unlessRefused_withPolicy, Checked.pure_eq_ok.1 h]
    rfl
  | cook seat r n =>
    rw [step, cook_withPolicy, unlessRefused_withPolicy, Checked.pure_eq_ok.1 h]
    rfl
  | trigger seat event => exact single_lenient h clean
  | act seat action => exact single_lenient h clean
  | endTurn seat => exact single_lenient h clean
  | triggerAll event => exact several_lenient h clean
  | harvest => exact several_lenient h clean
  | beginRound =>
    obtain ⟨⟨g', reports⟩, hround, heq⟩ := Checked.bind_eq_ok.1 h
    cases Checked.pure_eq_ok.1 heq
    obtain ⟨round, hround, hdispatch⟩ := Checked.bind_eq_ok.1 hround
    have lenient := (triggerEach_eq_ok_iff.1 hdispatch).lenient (refusals_eq_nil clean)
    have began : (g.withPolicy .allowNegative).beginRound =
        .ok (g'.withPolicy .allowNegative, reports) :=
      Checked.bind_eq_ok.2 ⟨round, hround, triggerEach_eq_ok_iff.2 lenient⟩
    exact Checked.bind_eq_ok.2 ⟨_, began, rfl⟩
  | clearRegistry =>
    cases Checked.pure_eq_ok.1 h
    rfl
  | rebuildRegistry =>
    cases Checked.pure_eq_ok.1 h
    rw [step, rebuildRegistry_withPolicy]
    rfl

/-- A run in which no effect was refused is made alike. -/
theorem run_lenient (h : run moves g = .ok (g', turns))
    (clean : ∀ turn ∈ turns, turn.warnings = []) :
    run moves (g.withPolicy .allowNegative) = .ok (g'.withPolicy .allowNegative, turns) := by
  induction moves generalizing g turns with
  | nil =>
    cases Checked.pure_eq_ok.1 h
    rfl
  | cons move moves ih =>
    obtain ⟨⟨g₁, turn⟩, hstep, h⟩ := Checked.bind_eq_ok.1 h
    obtain ⟨⟨g', turns⟩, hrun, h⟩ := Checked.bind_eq_ok.1 h
    cases Checked.pure_eq_ok.1 h
    obtain ⟨first, rest⟩ := List.forall_mem_cons.1 clean
    rw [run, step_lenient hstep first, Checked.ok_bind]
    exact Checked.bind_eq_ok.2 ⟨_, ih hrun rest, rfl⟩

theorem start_withPolicy (h : start setup = .ok g) (policy : PaymentPolicy) :
    start (setup.withPolicy policy) = .ok (g.withPolicy policy) := by
  obtain ⟨seats, hseats, h⟩ := Checked.bind_eq_ok.1 h
  obtain ⟨store, hstore, h⟩ := Checked.bind_eq_ok.1 h
  cases Checked.pure_eq_ok.1 h
  exact Checked.bind_eq_ok.2 ⟨seats, hseats, Checked.bind_eq_ok.2 ⟨store, hstore, rfl⟩⟩

end Game

variable {setup : Setup} {start g : Game} {moves : List Move} {turns : List Turn}

/-- Strict payment refines lenient payment. A run under strict payment in which no effect was
refused, neither in dispatching nor at the moment of play, is also a run under the policy that lets
balances drop below zero: from the same setup the same moves bring the same turns one by one, and
end with the same farms, registrations and statistics, in the same round and with the same next
identifier. -/
theorem strict_refines_lenient (started : Game.start (setup.withPolicy .strict) = .ok start)
    (ran : Game.run moves start = .ok (g, turns)) (clean : ∀ turn ∈ turns, turn.warnings = []) :
    ∃ start' g', Game.start (setup.withPolicy .allowNegative) = .ok start' ∧
      Game.run moves start' = .ok (g', turns) ∧ g'.farms = g.farms ∧
      g'.registry.listed = g.registry.listed ∧ g'.registry.stats = g.registry.stats ∧
      g'.round = g.round ∧ g'.nextCopy = g.nextCopy :=
  ⟨_, _, Game.start_withPolicy started .allowNegative, Game.run_lenient ran clean, rfl, rfl, rfl,
    rfl, rfl⟩

/-- A joinery, a carpenter and a well that is too dear, a harvest in which the joinery works, and a
further round. -/
def joineryMoves : List Move :=
  [.play ⟨0⟩ Deck.joinery, .play ⟨0⟩ Deck.carpenter, .play ⟨0⟩ Deck.well, .harvest, .beginRound]

/-- Under either policy the well is refused, and the joinery makes food of one of the wood. -/
theorem strict_refines_lenient_joinery :
    ∃ start g turns, Game.start ⟨1, .strict, ⟨[(.wood, 2), (.stone, 2), (.food, 1)]⟩, 2, 2⟩ =
        .ok start ∧ Game.run joineryMoves start = .ok (g, turns) ∧
      turns.flatMap Turn.warnings = [] ∧ g.registry.stats = ⟨2, 9, 1, 0⟩ ∧
      ∃ start' g', Game.start
          ⟨1, .allowNegative, ⟨[(.wood, 2), (.stone, 2), (.food, 1)]⟩, 2, 2⟩ = .ok start' ∧
        Game.run joineryMoves start' = .ok (g', turns) ∧ g'.farms = g.farms ∧
        g'.registry.stats = ⟨2, 9, 1, 0⟩ := by
  have started : Game.start (Setup.withPolicy
      ⟨1, .strict, ⟨[(.wood, 2), (.stone, 2), (.food, 1)]⟩, 2, 2⟩ .strict) = .ok _ := rfl
  obtain ⟨start', g', started', ran', farms, -, stats, -⟩ :=
    strict_refines_lenient started (rfl : Game.run joineryMoves _ = .ok (_, _))
      (List.flatMap_eq_nil_iff.1 rfl)
  exact ⟨_, _, _, started, rfl, rfl, rfl, start', g', started', ran', farms, stats⟩

end Homestead
