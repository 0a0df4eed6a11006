import Homestead.Proofs.Accounts
import Homestead.Proofs.Firing

/-!
# Programs that change things in place

The definitions of the library return what they changed, and a refusal comes without a changed
state. An engine that changes its state step by step leaves the state as it is when the refusal
occurs. The programs here do that: applying an effect takes the costs one by one, adds the gains one
by one and so on, and a refusal ends the program wherever it is.

`Effect.run_perform` and `Copy.run_perform` show that these programs compute what the operations of
the library compute, and so that every refusal comes before the first change.
-/

namespace Homestead

/-- A program that changes a state in place; a fault ends everything. -/
abbrev InPlace (σ α : Type) : Type := StateT σ Checked α

namespace InPlace

variable {σ τ α β : Type} {f g : σ → Checked σ} {p q : InPlace σ Unit} {s : σ}

/-- Changes the state. -/
def change (f : σ → Checked σ) : InPlace σ Unit := fun s => (fun s => ((), s)) <$> f s

/-- Looks at the state. -/
def look (f : σ → Checked α) : InPlace σ α := fun s => (fun a => (a, s)) <$> f s

/-- Changes the state for every element of a list in turn. -/
def changeEach (f : σ → α → Checked σ) : List α → InPlace σ Unit
  | [] => pure ()
  | a :: rest => do
    change fun s => f s a
    changeEach f rest

/-- Runs a program on one part of the state. -/
def within (get : σ → τ) (set : τ → σ → σ) (p : InPlace τ α) : InPlace σ α := fun s =>
  (fun r => (r.1, set r.2 s)) <$> p.run (get s)

/-- Runs a program on the store of a farm. -/
def atStore (p : InPlace Store α) : InPlace Farm α :=
  within Farm.store (fun s f => { f with store := s }) p

/-- Runs a program on the copy of an identifier and the store of its farm, if there is that copy. -/
def atCopy (id : CopyId) (p : InPlace (Copy × Store) α) : InPlace Farm (Option α) := fun f =>
  match f.copy? id with
  | some c => (fun x => (some x.1, f.replace x.2.1 x.2.2)) <$> p.run (c, f.store)
  | none => return (none, f)

/-- The program does to the state what the function says. -/
def Does (p : InPlace σ Unit) (f : σ → Checked σ) : Prop :=
  ∀ s, p.run s = (fun s => ((), s)) <$> f s

/-- What is returned and left by a program that changes the state as `done` says, or refuses to and
leaves `s` as it is. -/
def leaving (s : σ) (done : β → α × σ) : Except Refusal β → Except Refusal α × σ
  | .error cause => (.error cause, s)
  | .ok b => (.ok (done b).1, (done b).2)

theorem run_look (f : σ → Checked α) (s : σ) : (look f).run s = (fun a => (a, s)) <$> f s := rfl

theorem run_within (get : σ → τ) (set : τ → σ → σ) (p : InPlace τ α) (s : σ) :
    (within get set p).run s = (fun r => (r.1, set r.2 s)) <$> p.run (get s) := rfl

theorem run_atCopy {f : Farm} {id : CopyId} {c : Copy} (hc : f.copy? id = some c)
    (p : InPlace (Copy × Store) α) :
    (atCopy id p).run f =
      (fun x => (some x.1, f.replace x.2.1 x.2.2)) <$> p.run (c, f.store) := by
  change (match f.copy? id with | some _ => _ | none => _) = _
  rw [hc]

theorem run_atCopy_none {f : Farm} {id : CopyId} (hc : f.copy? id = none)
    (p : InPlace (Copy × Store) α) : (atCopy id p).run f = .ok (none, f) := by
  change (match f.copy? id with | some _ => _ | none => _) = _
  rw [hc]
  rfl

namespace Does

theorem change (f : σ → Checked σ) : Does (change f) f := fun _ => rfl

theorem pure : Does (pure () : InPlace σ Unit) pure := fun _ => rfl

/-- One program after the other. -/
theorem seq (hp : Does p f) (hq : Does q g) : Does (do p; q) fun s => f s >>= g := fun s => by
  rw [StateT.run_bind, hp]
  change _ = _ <$> (f s >>= g)
  cases f s with
  | error fault => rfl
  | ok s' => exact hq s'

theorem changeEach (f : σ → α → Checked σ) (l : List α) :
    Does (changeEach f l) fun s => l.foldlM f s := by
  induction l with
  | nil => exact .pure
  | cons a rest ih => exact (Does.change _).seq ih

/-- What follows a program that changes the state starts from the changed state. -/
theorem run_bind (hp : Does p f) (k : InPlace σ α) (s : σ) :
    (do p; k : InPlace σ α).run s = f s >>= k.run := by
  rw [StateT.run_bind, hp]
  cases f s <;> rfl

end Does

theorem run_atStore {p : InPlace Store Unit} {g : Store → Checked Store} (h : Does p g) (f : Farm) :
    (atStore p).run f = (fun s => ((), { f with store := s })) <$> g f.store := by
  change _ <$> p.run f.store = _
  rw [h]
  cases g f.store <;> rfl

end InPlace

open InPlace

/-! ## Effects -/

/-- Takes the costs of an effect and gives everything that it gives, with `boon` as its boon. -/
def Effect.settles (e : Effect) (boon : Option Boon) : InPlace Store Unit := do
  changeEach (fun s entry => s.withdraw entry.1 entry.2) e.costs.entries
  changeEach (fun s entry => s.add entry.1 entry.2) e.gains.entries
  change fun s => if e.points = 0 then pure s else s.addPoints e.points
  match boon with
  | none => pure ()
  | some boon => change boon.grant

/-- Applies an effect of a card to a store, or refuses to. -/
def Effect.perform (e : Effect) (card : Card) (policy : PaymentPolicy) :
    InPlace Store (Except Refusal Unit) := do
  match e.boon card.id with
  | .error obstacle => return .error (.effectFailed card.name card.id e.id obstacle)
  | .ok boon =>
    match ← look (e.unpaid? policy) with
    | some r => return .error (.effectFailed card.name card.id e.id (.notEnough r))
    | none =>
      e.settles boon
      return .ok ()

theorem Effect.does_settles (e : Effect) (boon : Option Boon) :
    Does (e.settles boon) (e.settle boon) := by
  rw [funext (e.settle_eq boon)]
  refine .seq (.changeEach _ _) (.seq (.changeEach _ _) (.seq (.change _) ?_))
  cases boon with
  | none => exact .pure
  | some boon => exact .change _

/-- An effect that is refused was refused before the first change. -/
theorem Effect.run_perform (e : Effect) (card : Card) (policy : PaymentPolicy) (s : Store) :
    (e.perform card policy).run s = leaving s (fun s => ((), s)) <$> e.apply card policy s := by
  rw [perform, apply]
  cases e.boon card.id with
  | error obstacle => rfl
  | ok boon =>
    simp only [StateT.run_bind, run_look]
    cases e.unpaid? policy s with
    | error fault => rfl
    | ok short =>
      cases short with
      | some r => rfl
      | none =>
        simp only [Checked.map_ok, Checked.ok_bind]
        rw [(e.does_settles boon).run_bind]
        cases e.settle boon s <;> rfl

/-! ## Copies -/

/-- Applies the effect at a position of a copy to a store and counts the use, or refuses to. Tells
whether the effect was applied. -/
def Copy.perform (i : Nat) (policy : PaymentPolicy) :
    InPlace (Copy × Store) (Except Refusal Bool) := do
  let (c, _) ← get
  match c.canApply i, c.card.effects[i]? with
  | true, some e =>
    match ← within Prod.snd (fun s cs => (cs.1, s)) (e.perform c.card policy) with
    | .error cause => return .error cause
    | .ok () =>
      modify fun (c, s) => ({ c with uses := c.uses.modify i fun u => ⟨u.count.succ⟩ }, s)
      return .ok true
  | _, _ => return .ok false

/-- Applies the effects at several positions of a copy in order, up to the first refusal. -/
def Copy.performAll (policy : PaymentPolicy) : List Nat → InPlace (Copy × Store) Outcome
  | [] => return .nothing
  | i :: is => do
    match ← perform i policy with
    | .error cause => return .refused cause
    | .ok true => return (← performAll policy is).after i
    | .ok false => performAll policy is

/-- An attempt that is refused or declined leaves the copy and the store as they were. -/
theorem Copy.run_perform (c : Copy) (i : Nat) (policy : PaymentPolicy) (s : Store) :
    (perform i policy).run (c, s) =
      leaving (c, s) (fun after => (after.isSome, after.getD (c, s))) <$>
        c.applyEffect i policy s := by
  rw [perform, StateT.run_bind, StateT.run_get]
  simp only [pure_bind]
  cases hcan : c.canApply i with
  | false =>
    rw [applyEffect_eq_ok_iff.2 (.declined hcan)]
    rfl
  | true =>
    obtain ⟨e, u, he, hu, allowed⟩ := canApply_iff.1 hcan
    simp only [he, applyEffect, hu, Uses.record?, if_pos allowed, StateT.run_bind, run_within,
      Effect.run_perform]
    cases e.apply c.card policy s with
    | error fault => rfl
    | ok result =>
      cases result with
      | error cause => rfl
      | ok s' =>
        have hcount : c.uses.modify i (fun u => ⟨u.count.succ⟩) = c.uses.set i ⟨u.count.succ⟩ := by
          have : Inhabited Uses := ⟨u⟩
          rw [List.modify_eq_set, hu]
          rfl
        change Except.ok (Except.ok true, { c with uses := c.uses.modify i _ }, s') = _
        rw [hcount]
        rfl

theorem Copy.eq_of_perform {i : Nat} {policy : PaymentPolicy} {c c' : Copy} {s s' : Store}
    {result : Except Refusal Bool} (h : (perform i policy).run (c, s) = .ok (result, c', s'))
    (unapplied : result ≠ .ok true) : c' = c ∧ s' = s := by
  rw [run_perform] at h
  obtain ⟨cause | _ | after, -, h⟩ := Checked.map_eq_ok.1 h
  · cases h
    exact ⟨rfl, rfl⟩
  · cases h
    exact ⟨rfl, rfl⟩
  · cases h
    exact absurd rfl unapplied

theorem Copy.run_performAll {policy : PaymentPolicy} (is : List Nat) (c : Copy) (s : Store) :
    (performAll policy is).run (c, s) =
      (fun x => (x.2.2, x.1, x.2.1)) <$> applyAll policy is c s := by
  induction is generalizing c s with
  | nil => rfl
  | cons i is ih =>
    rw [performAll, applyAll, StateT.run_bind, run_perform]
    rcases c.applyEffect i policy s with fault | cause | _ | ⟨c₁, s₁⟩
    · rfl
    · rfl
    · exact ih c s
    · have hrest := ih c₁ s₁
      simp only [Checked.map_ok, Checked.ok_bind, leaving, Option.isSome_some, Option.getD_some,
        StateT.run_bind, hrest]
      cases applyAll policy is c₁ s₁ <;> rfl

theorem Copy.eq_of_performAll {is : List Nat} {policy : PaymentPolicy} {c c' : Copy} {s s' : Store}
    {o : Outcome} (h : (performAll policy is).run (c, s) = .ok (o, c', s'))
    (none : o.applied = []) : c' = c ∧ s' = s := by
  rw [run_performAll] at h
  obtain ⟨x, hall, h⟩ := Checked.map_eq_ok.1 h
  cases h
  exact (applyAll_eq_ok_iff.1 hall).eq_of_applied_nil none

end Homestead
