import Homestead.Proofs.Accounts
import Homestead.Proofs.Playing

/-!
# Payment policies

A payment policy decides one thing: whether an effect that costs more than there is is refused.
Whatever went through without a refusal therefore goes through alike where balances may drop below
zero (`Match.FiresAll.lenient`). Playing a card asks for its price under either policy
(`Registry.Plays.lenient`), and what is registered does not depend on the policy at all.
-/

namespace Homestead

/-- The registry under another payment policy. -/
def Registry.withPolicy (r : Registry) (policy : PaymentPolicy) : Registry :=
  { r with policy := policy }

variable {policy : PaymentPolicy} {s s' : Store} {e : Effect} {card : Card} {c c' : Copy} {i : Nat}
  {is : List Nat} {o : Outcome} {f f' : Farm} {id : CopyId} {m : Match} {ms : List Match}
  {farms farms' : Seating Farm} {firing : Firing} {firings : List Firing} {seat : Seat} {p : Played}
  {r r' : Registry}

/-! ## Effects -/

/-- An effect that was applied is applied where balances may drop below zero. -/
theorem Effect.apply_lenient (h : e.apply card policy s = .ok (.ok s')) :
    e.apply card .allowNegative s = .ok (.ok s') := by
  obtain ⟨boon, hboon, -, hsettle⟩ := apply_eq_ok_iff.1 h
  exact apply_eq_ok_iff.2 ⟨boon, hboon, rfl, hsettle⟩

theorem Copy.Attempt.lenient {made : Option (Copy × Store)}
    (h : Copy.Attempt policy c s i (.ok made)) :
    Copy.Attempt .allowNegative c s i (.ok made) := by
  cases h with
  | declined no => exact .declined no
  | applied he hu allowed happly => exact .applied he hu allowed (Effect.apply_lenient happly)

theorem Copy.applyEffect_lenient {made : Option (Copy × Store)}
    (h : c.applyEffect i policy s = .ok (.ok made)) :
    c.applyEffect i .allowNegative s = .ok (.ok made) := by
  rw [applyEffect_eq_ok_iff] at h ⊢
  exact h.lenient

/-- Attempts of which none was refused come out alike. -/
theorem Copy.Applies.lenient (h : Copy.Applies policy is c s c' s' o) (clean : o.failure = none) :
    Copy.Applies .allowNegative is c s c' s' o := by
  induction h with
  | nil => exact .nil
  | refused => cases clean
  | declined hi _ ih => exact .declined (applyEffect_lenient hi) (ih clean)
  | applied hi _ ih => exact .applied (applyEffect_lenient hi) (ih clean)

/-! ## Matches -/

theorem Farm.Fires.lenient (h : f.Fires policy id is f' o) (clean : o.failure = none) :
    f.Fires .allowNegative id is f' o := by
  cases h with
  | absent hc => exact .absent hc
  | owned hc happlies => exact .owned hc (happlies.lenient clean)

theorem Match.Fires.lenient (h : m.Fires policy farms farms' firing)
    (clean : firing.outcome.failure = none) : m.Fires .allowNegative farms farms' firing := by
  cases h with
  | noFarm hf => exact .noFarm hf
  | farm hf hfires => exact .farm hf (hfires.lenient clean)

/-- Matches of which a refusal ended none fire alike. -/
theorem Match.FiresAll.lenient (h : Match.FiresAll policy ms farms farms' firings)
    (clean : ∀ firing ∈ firings, firing.outcome.failure = none) :
    Match.FiresAll .allowNegative ms farms farms' firings := by
  induction h with
  | nil => exact .nil
  | cons hm _ ih =>
    obtain ⟨first, rest⟩ := List.forall_mem_cons.1 clean
    exact .cons (hm.lenient first) (ih rest)

theorem Report.failure_eq_none {report : Report} (clean : report.refusals = [])
    (h : firing ∈ report.firings) : firing.outcome.failure = none :=
  List.filterMap_eq_nil_iff.1 clean firing h

/-! ## The registry -/

namespace Registry

theorem register?_withPolicy (r : Registry) (policy : PaymentPolicy) (farms : Seating Farm)
    (seat : Seat) (id : CopyId) :
    (r.withPolicy policy).register? farms seat id =
      (r.register? farms seat id).map fun r => r.withPolicy policy := by
  ext r'
  rw [register?_eq_some_iff, Option.map_eq_some_iff]
  constructor
  · intro h
    obtain ⟨owned, new, rfl⟩ := h
    exact ⟨_, register?_eq_some_iff.2 ⟨owned, new, rfl⟩, rfl⟩
  · intro h
    obtain ⟨r₁, hr₁, rfl⟩ := h
    obtain ⟨owned, new, rfl⟩ := register?_eq_some_iff.1 hr₁
    exact ⟨owned, new, rfl⟩

theorem register_withPolicy (r : Registry) (policy : PaymentPolicy) (farms : Seating Farm)
    (seat : Seat) (id : CopyId) :
    (r.withPolicy policy).register farms seat id =
      (r.register farms seat id).withPolicy policy := by
  rw [register, register?_withPolicy, register]
  cases r.register? farms seat id <;> rfl

theorem unregister_withPolicy (r : Registry) (policy : PaymentPolicy) (seat : Seat)
    (id : CopyId) :
    (r.withPolicy policy).unregister seat id = (r.unregister seat id).withPolicy policy := by
  have same : (r.withPolicy policy).isRegistered seat id = r.isRegistered seat id := rfl
  unfold unregister unregister?
  rw [same]
  split <;> rfl

end Registry

/-! ## Playing -/

theorem Farm.PlaysOut.lenient (h : f.PlaysOut seat card id policy f' p)
    (clean : p.outcome.failure = none) : f.PlaysOut seat card id .allowNegative f' p := by
  cases h with
  | intro hpaid happlies hinstalled => exact .intro hpaid (happlies.lenient clean) hinstalled

/-- A play that goes through, and whose effects do, goes through alike. -/
theorem Registry.Plays.lenient
    (h : r.Plays farms seat card id (.ok (r', farms', p))) (clean : p.outcome.failure = none) :
    (r.withPolicy .allowNegative).Plays farms seat card id
      (.ok (r'.withPolicy .allowNegative, farms', p)) := by
  cases h with
  | played hf new checked hplay =>
    rw [← register_withPolicy]
    exact .played hf new checked (hplay.lenient clean)

/-- Whether a play is refused does not depend on the policy. -/
theorem Registry.Plays.refused_lenient {cause : Refusal}
    (h : r.Plays farms seat card id (.error cause)) (policy : PaymentPolicy) :
    (r.withPolicy policy).Plays farms seat card id (.error cause) := by
  cases h with
  | noFarm hf => exact .noFarm hf
  | alreadyOwned hf owned => exact .alreadyOwned hf owned
  | objected hf new objected => exact .objected hf new objected

end Homestead
