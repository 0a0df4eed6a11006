import Homestead.Deck
import Homestead.Proofs.Firing
import Homestead.Proofs.Listing
import Homestead.Registry.Call
import Mathlib.Data.List.Perm.Basic
import Mathlib.Data.List.Count

/-!
# The registry as a list of pairs

What a registry lists is a list of seats and copies in which no pair stands twice, kept in the order
of registration. `Call.effect` says what a call does to that list and `Call.expected?` what it
returns, without a word on how the registry keeps its entries; `Registry.Lists` relates the two.
Every call keeps them related (`Registry.Lists.call`), and whatever the registry can be asked about
its entries is then answered by the list (`Registry.Lists.size_eq`, `Registry.Lists.isEmpty_iff`).
-/

namespace Homestead

/-- Does the seat have a farm that owns a copy of the identifier? -/
def Seat.owns (seat : Seat) (farms : Seating Farm) (id : CopyId) : Bool :=
  (farms.get? seat).any fun f => f.owns id

/-- The copies that a list of pairs has for a seat, in order. -/
def copiesFor (l : List (Seat × CopyId)) (seat : Seat) : List CopyId :=
  (l.filter fun e => e.1 = seat).map Prod.snd

namespace Call

/-- What a call does to a list of pairs. -/
def effect (l : List (Seat × CopyId)) : Call → List (Seat × CopyId)
  | register farms seat id =>
    if seat.owns farms id ∧ (seat, id) ∉ l then l ++ [(seat, id)] else l
  | unregister seat id => l.erase (seat, id)
  | unregisterSeat seat => l.filter fun e => e.1 ≠ seat
  | clear => []
  | _ => l

/-- What a call returns on a list of pairs. What dispatching comes to the list does not say. -/
def expected? (l : List (Seat × CopyId)) : Call → Option Reply
  | register farms seat id => some (.registered (seat.owns farms id ∧ (seat, id) ∉ l))
  | unregister seat id => some (.unregistered ((seat, id) ∈ l))
  | unregisterSeat seat => some (.seatUnregistered (l.countP fun e => e.1 = seat))
  | clear => some .cleared
  | _ => none

/-- Is the call about entries of the seat? -/
def isAbout (seat : Seat) : Call → Bool
  | register _ place _ | unregister place _ | unregisterSeat place => place = seat
  | clear => true
  | _ => false

/-- The list of pairs after several calls, from the empty one on. -/
def pairs (calls : List Call) : List (Seat × CopyId) := calls.foldl effect []

end Call

/-- The registry lists just the pairs of the list. -/
structure Registry.Lists (r : Registry) (l : List (Seat × CopyId)) : Prop where
  tidy : r.Tidy
  nodup : l.Nodup
  copiesOf : ∀ seat, r.copiesOf seat = copiesFor l seat

variable {l : List (Seat × CopyId)} {seat other : Seat} {id : CopyId} {r r' : Registry}
  {farms : Seating Farm} {c : Call} {calls : List Call} {reply : Reply} {replies : List Reply}
  {policy : PaymentPolicy}

/-! ## Lists of pairs -/

theorem mem_copiesFor : id ∈ copiesFor l seat ↔ (seat, id) ∈ l := by
  simp [copiesFor]

theorem length_copiesFor (l : List (Seat × CopyId)) (seat : Seat) :
    (copiesFor l seat).length = l.countP fun e => e.1 = seat := by
  rw [copiesFor, List.length_map, List.countP_eq_length_filter]

theorem copiesFor_append (l l' : List (Seat × CopyId)) (seat : Seat) :
    copiesFor (l ++ l') seat = copiesFor l seat ++ copiesFor l' seat := by
  simp [copiesFor]

theorem copiesFor_singleton (seat other : Seat) (id : CopyId) :
    copiesFor [(seat, id)] other = if seat = other then [id] else [] := by
  unfold copiesFor
  split
  · rename_i eq
    simp [eq]
  · rename_i ne
    simp [ne]

theorem copiesFor_cons (seat other : Seat) (id : CopyId) (l : List (Seat × CopyId)) :
    copiesFor ((seat, id) :: l) other =
      if seat = other then id :: copiesFor l other else copiesFor l other := by
  rw [← List.singleton_append, copiesFor_append, copiesFor_singleton]
  split <;> rfl

theorem copiesFor_erase (l : List (Seat × CopyId)) (seat : Seat) (id : CopyId) (other : Seat) :
    copiesFor (l.erase (seat, id)) other =
      if seat = other then (copiesFor l seat).erase id else copiesFor l other := by
  induction l with
  | nil => simp [copiesFor]
  | cons e l ih =>
    obtain ⟨place, i⟩ := e
    by_cases same : (place, i) = (seat, id)
    · cases same
      rw [List.erase_cons_head, copiesFor_cons, copiesFor_cons, if_pos rfl]
      split
      · rename_i eq
        rw [List.erase_cons_head, eq]
      · rfl
    · rw [List.erase_cons_tail (by simpa using same), copiesFor_cons, ih, copiesFor_cons,
        copiesFor_cons]
      by_cases eq : seat = other
      · subst eq
        rw [if_pos rfl, if_pos rfl]
        split
        · rename_i eq
          subst eq
          have ne : i ≠ id := fun eq => same (congrArg _ eq)
          exact (List.erase_cons_tail (by simpa using ne)).symm
        · rfl
      · rw [if_neg eq, if_neg eq]

theorem copiesFor_filter (l : List (Seat × CopyId)) (seat other : Seat) :
    copiesFor (l.filter fun e => e.1 ≠ seat) other =
      if seat = other then [] else copiesFor l other := by
  rw [copiesFor, List.filter_filter]
  split
  · rename_i eq
    subst eq
    simp
  · rename_i ne
    have same : ∀ e ∈ l, (decide (e.1 = other) && decide (e.1 ≠ seat)) = decide (e.1 = other) := by
      intro e _
      by_cases eq : e.1 = other
      · simp [eq, Ne.symm ne]
      · simp [eq]
    rw [List.filter_congr same]
    rfl

/-- Values without duplicates, tagged with keys that differ, are without duplicates. -/
theorem nodup_tagged {α β γ : Type} {l : List γ} {key : γ → α} {values : γ → List β}
    (keys : l.Pairwise fun a b => key a ≠ key b) (nodup : ∀ e ∈ l, (values e).Nodup) :
    (l.flatMap fun e => (values e).map fun v => (key e, v)).Nodup := by
  rw [List.nodup_flatMap]
  refine ⟨?_, keys.imp ?_⟩
  · intro e he
    exact (nodup e he).map fun v w same => congrArg Prod.snd same
  · intro a b ne
    apply List.disjoint_left.2
    intro p ha hb
    obtain ⟨v, -, rfl⟩ := List.mem_map.1 ha
    obtain ⟨w, -, eq⟩ := List.mem_map.1 hb
    exact ne (congrArg Prod.fst eq).symm

/-! ## What a registry lists -/

namespace Registry

theorem register?_isSome : (r.register? farms seat id).isSome ↔
    seat.owns farms id ∧ id ∉ r.copiesOf seat := by
  rw [Option.isSome_iff_exists]
  simp only [register?_eq_some_iff, Seat.owns, Option.any_eq_true]
  constructor
  · intro h
    obtain ⟨r', owned, new, -⟩ := h
    exact ⟨owned, new⟩
  · intro h
    exact ⟨_, h.1, h.2, rfl⟩

/-- Every pair that the registry lists. -/
def pairs (r : Registry) : List (Seat × CopyId) :=
  r.listed.flatMap fun e => e.2.map fun id => (e.1, id)

theorem size_eq_length_pairs (r : Registry) : r.size = r.pairs.length := by
  simp [size, pairs, List.length_flatMap]

theorem Tidy.mem_pairs (h : r.Tidy) : (seat, id) ∈ r.pairs ↔ id ∈ r.copiesOf seat := by
  change _ ↔ id ∈ listing r.listed seat
  unfold pairs
  unfold Tidy at h
  generalize r.listed = entries at h
  induction entries with
  | nil => simp [listing]
  | cons e entries ih =>
    rw [List.flatMap_cons, List.mem_append, ih h.tail, listing_cons]
    split
    · rename_i eq
      subst eq
      rw [listing_eq_nil h.head.1]
      simp
    · rename_i ne
      simp [ne]

theorem Tidy.pairs_nodup (h : r.Tidy) : r.pairs.Nodup :=
  nodup_tagged (List.pairwise_map.1 h.seats_nodup) h.copies_nodup

/-- The number of registered copies is that of the pairs in any account of them. -/
theorem Tidy.size_eq_length (h : r.Tidy) (nodup : l.Nodup)
    (same : ∀ seat id, id ∈ r.copiesOf seat ↔ (seat, id) ∈ l) : r.size = l.length := by
  rw [size_eq_length_pairs]
  apply List.Perm.length_eq
  rw [List.perm_ext_iff_of_nodup h.pairs_nodup nodup]
  intro e
  obtain ⟨seat, id⟩ := e
  rw [h.mem_pairs, same]

namespace Lists

theorem new (policy : PaymentPolicy) : (new policy).Lists [] :=
  ⟨tidy_new policy, List.nodup_nil, fun _ => rfl⟩

theorem mem (h : r.Lists l) : id ∈ r.copiesOf seat ↔ (seat, id) ∈ l := by
  rw [h.copiesOf, mem_copiesFor]

theorem size_eq (h : r.Lists l) : r.size = l.length :=
  h.tidy.size_eq_length h.nodup fun _ _ => h.mem

/-- No seat keeps an entry without copies. -/
theorem isEmpty_iff (h : r.Lists l) : r.isEmpty ↔ r.size = 0 := by
  rw [isEmpty, List.isEmpty_iff, size, List.length_eq_zero_iff, List.flatMap_eq_nil_iff]
  constructor
  · intro none
    simp [none]
  · intro none
    apply List.eq_nil_iff_forall_not_mem.2
    intro e he
    exact h.tidy.copies_ne_nil e he (none e he)

theorem register (h : r.Lists l) (farms : Seating Farm) (seat : Seat) (id : CopyId) :
    (r.register farms seat id).Lists
      (if seat.owns farms id ∧ (seat, id) ∉ l then l ++ [(seat, id)] else l) := by
  cases hr : r.register? farms seat id with
  | none =>
    have refused : ¬(seat.owns farms id ∧ (seat, id) ∉ l) := by
      rw [← h.mem, ← register?_isSome, hr]
      simp
    rw [if_neg refused, Registry.register, hr]
    exact h
  | some r' =>
    have accepted : seat.owns farms id ∧ (seat, id) ∉ l := by
      rw [← h.mem, ← register?_isSome, hr]
      rfl
    rw [if_pos accepted, Registry.register, hr]
    refine ⟨h.tidy.register? hr, ?_, fun other => ?_⟩
    · exact h.nodup.append (List.nodup_singleton _) (by simpa using accepted.2)
    · rw [copiesFor_append, copiesFor_singleton, ← h.copiesOf]
      refine (copiesOf_register? hr other).trans ?_
      split
      · rename_i eq
        rw [eq]
      · rw [List.append_nil]

theorem unregister (h : r.Lists l) (seat : Seat) (id : CopyId) :
    (r.unregister seat id).Lists (l.erase (seat, id)) := by
  refine ⟨h.tidy.unregister seat id, h.nodup.erase _, fun other => ?_⟩
  rw [h.tidy.copiesOf_unregister, copiesFor_erase, h.copiesOf, h.copiesOf]

theorem unregisterSeat (h : r.Lists l) (seat : Seat) :
    (r.unregisterSeat seat).Lists (l.filter fun e => e.1 ≠ seat) := by
  refine ⟨h.tidy.unregisterSeat seat, h.nodup.filter _, fun other => ?_⟩
  rw [copiesOf_unregisterSeat, copiesFor_filter, h.copiesOf]

theorem congr (h : r.Lists l) (listed : r'.listed = r.listed) : r'.Lists l := by
  refine ⟨?_, h.nodup, fun seat => ?_⟩
  · rw [Tidy, listed]
    exact h.tidy
  · rw [← h.copiesOf, Registry.copiesOf, listed, Registry.copiesOf]

end Lists

/-! ## Calls -/

theorem of_dispatching {result : Checked (Registry × Seating Farm × Report)}
    (h : dispatching result = .ok (r', reply)) :
    ∃ farms report, result = .ok (r', farms, report) ∧ reply = .dispatched farms report := by
  obtain ⟨⟨r', farms, report⟩, hresult, h⟩ := Checked.bind_eq_ok.1 h
  cases Checked.pure_eq_ok.1 h
  exact ⟨farms, report, hresult, rfl⟩

theorem listed_of_execute {ms : List Match} {event : Event} {farms' : Seating Farm}
    {report : Report} (h : r.execute farms ms event = .ok (r', farms', report)) :
    r'.listed = r.listed := by
  obtain ⟨-, -, rfl⟩ := execute_eq_ok_iff.1 h
  rfl

/-- A call does to what the registry lists what it does to the list of pairs, and returns what the
list says. -/
theorem Lists.call (h : r.Lists l) (hcall : r.call c = .ok (r', reply)) :
    r'.Lists (c.effect l) ∧ ∀ expected, c.expected? l = some expected → reply = expected := by
  cases c with
  | register farms seat id =>
    cases Checked.pure_eq_ok.1 hcall
    refine ⟨h.register farms seat id, ?_⟩
    rintro expected ⟨⟩
    refine congrArg Reply.registered (Bool.eq_iff_iff.2 ?_)
    rw [register?_isSome, h.mem, decide_eq_true_iff]
  | unregister seat id =>
    cases Checked.pure_eq_ok.1 hcall
    refine ⟨h.unregister seat id, ?_⟩
    rintro expected ⟨⟩
    refine congrArg Reply.unregistered (Bool.eq_iff_iff.2 ?_)
    rw [decide_eq_true_iff, ← h.mem, ← isRegistered_iff, unregister?]
    split
    · rename_i registered
      simp [registered]
    · rename_i absent
      simp [absent]
  | unregisterSeat seat =>
    cases Checked.pure_eq_ok.1 hcall
    refine ⟨h.unregisterSeat seat, ?_⟩
    rintro expected ⟨⟩
    rw [countOf, h.copiesOf, length_copiesFor]
  | clear =>
    cases Checked.pure_eq_ok.1 hcall
    refine ⟨.new r.policy, ?_⟩
    rintro expected ⟨⟩
    rfl
  | execute farms ms event | trigger farms seat event | triggerAll farms seats event =>
    obtain ⟨farms', report, hexecute, rfl⟩ := of_dispatching hcall
    exact ⟨h.congr (listed_of_execute hexecute), nofun⟩

theorem Lists.callAll (h : r.Lists l) (hcalls : callAll calls r = .ok (r', replies)) :
    r'.Lists (calls.foldl Call.effect l) := by
  induction calls generalizing r l replies with
  | nil =>
    cases Checked.pure_eq_ok.1 hcalls
    exact h
  | cons c calls ih =>
    obtain ⟨⟨r₁, reply⟩, hcall, hcalls⟩ := Checked.bind_eq_ok.1 hcalls
    obtain ⟨⟨r', replies⟩, hrest, hcalls⟩ := Checked.bind_eq_ok.1 hcalls
    cases Checked.pure_eq_ok.1 hcalls
    exact ih (h.call hcall).1 hrest

end Registry

/-- A call that is not about a seat leaves that seat's pairs alone. -/
theorem Call.copiesFor_effect (h : c.isAbout seat = false) (l : List (Seat × CopyId)) :
    copiesFor (c.effect l) seat = copiesFor l seat := by
  cases c with
  | register farms place id =>
    have ne : place ≠ seat := by simpa [isAbout] using h
    rw [effect]
    split
    · rw [copiesFor_append, copiesFor_singleton, if_neg ne, List.append_nil]
    · rfl
  | unregister place id =>
    have ne : place ≠ seat := by simpa [isAbout] using h
    rw [effect, copiesFor_erase, if_neg ne]
  | unregisterSeat place =>
    have ne : place ≠ seat := by simpa [isAbout] using h
    rw [effect, copiesFor_filter, if_neg ne]
  | clear => cases h
  | execute | trigger | triggerAll => rfl

/-- A registry is an ordered list of pairs. After any calls, on whatever farms, it answers every
question about its entries as the list of pairs does that the calls make; and the next call does to
the one what it does to the other, returns what the list says, and leaves the copies of the seats
that it is not about alone. Only a dispatch can end in a fault. -/
theorem registry_is_list_of_pairs (h : Registry.callAll calls (.new policy) = .ok (r, replies)) :
    (Call.pairs calls).Nodup ∧
      (∀ seat, r.copiesOf seat = copiesFor (Call.pairs calls) seat) ∧
      (∀ seat, r.countOf seat = (Call.pairs calls).countP fun e => e.1 = seat) ∧
      (∀ seat id, r.isRegistered seat id ↔ (seat, id) ∈ Call.pairs calls) ∧
      r.size = (Call.pairs calls).length ∧ r.stats.registered = (Call.pairs calls).length ∧
      (r.isEmpty ↔ r.size = 0) ∧
      ∀ c, (c.isDispatch = false → ∃ r' reply, r.call c = .ok (r', reply)) ∧
        ∀ r' reply, r.call c = .ok (r', reply) →
          (∀ seat, r'.copiesOf seat = copiesFor (c.effect (Call.pairs calls)) seat) ∧
          (∀ expected, c.expected? (Call.pairs calls) = some expected → reply = expected) ∧
          ∀ seat, c.isAbout seat = false → r'.copiesOf seat = r.copiesOf seat := by
  have lists : r.Lists (Call.pairs calls) := (Registry.Lists.new policy).callAll h
  refine ⟨lists.nodup, lists.copiesOf, fun seat => ?_, fun seat id => ?_, lists.size_eq,
    lists.size_eq, lists.isEmpty_iff, fun c => ⟨fun registration => ?_, fun r' reply hcall => ?_⟩⟩
  · rw [Registry.countOf, lists.copiesOf, length_copiesFor]
  · rw [Registry.isRegistered_iff, lists.mem]
  · cases c with
    | execute | trigger | triggerAll => cases registration
    | _ => exact ⟨_, _, rfl⟩
  · obtain ⟨after, replied⟩ := lists.call hcall
    refine ⟨after.copiesOf, replied, fun seat other => ?_⟩
    rw [after.copiesOf, lists.copiesOf, Call.copiesFor_effect other]

/-- A table for two, each of whom owns a well. -/
def wellTable : Seating Farm :=
  ⟨[(Farm.new ⟨0⟩).add (.new ⟨1⟩ Deck.well), (Farm.new ⟨1⟩).add (.new ⟨2⟩ Deck.well)], by decide,
    by decide⟩

/-- Calls of which a second registration, one of a neighbour's copy and one for a seat that nobody
has come to nothing. -/
def wellCalls : List Call :=
  [.register wellTable ⟨0⟩ ⟨1⟩, .register wellTable ⟨0⟩ ⟨1⟩, .register wellTable ⟨1⟩ ⟨1⟩,
    .register wellTable ⟨7⟩ ⟨2⟩, .register wellTable ⟨1⟩ ⟨2⟩,
    .trigger wellTable ⟨1⟩ (.new .onRoundStart ⟨1⟩)]

/-- Two wells are registered, and taking the first seat's away leaves the second's. -/
theorem registry_is_list_of_pairs_wells :
    ∃ r replies, Registry.callAll wellCalls (.new .strict) = .ok (r, replies) ∧
      Call.pairs wellCalls = [(⟨0⟩, ⟨1⟩), (⟨1⟩, ⟨2⟩)] ∧ r.size = 2 ∧
      ∃ r', r.call (.unregisterSeat ⟨0⟩) = .ok (r', .seatUnregistered 1) ∧
        r'.copiesOf ⟨0⟩ = [] ∧ r'.copiesOf ⟨1⟩ = r.copiesOf ⟨1⟩ := by
  have hcalls : Registry.callAll wellCalls (.new .strict) = .ok (_, _) := rfl
  obtain ⟨-, -, -, -, size, -, -, next⟩ := registry_is_list_of_pairs hcalls
  obtain ⟨r', reply, hcall⟩ := (next (.unregisterSeat ⟨0⟩)).1 rfl
  obtain ⟨after, replied, others⟩ := (next (.unregisterSeat ⟨0⟩)).2 r' reply hcall
  obtain rfl := replied _ rfl
  exact ⟨_, _, hcalls, rfl, size, r', hcall, after ⟨0⟩, others ⟨1⟩ rfl⟩

end Homestead
