import Homestead.Proofs.Sufficiency

/-!
# Entry by entry

A bundle is added up, added to a store and taken from it one entry at a time, and each step has to
fit an amount. Where that ends, the totals of the bundle say what it came to, so the order of the
entries is seen in whether it ends at all and in nothing else (`Store.addAll_unique`).

If no entry is negative the order is not even seen in that: on the way no balance is higher than in
the end, and a fault is a fault of a total (`Bundle.amountOf_faults_iff`,
`Store.addAll_faults_iff`).
-/

namespace Homestead

variable {s t u : Store} {b b' : Bundle} {r : Resource}

/-! ## Faults -/

theorem Checked.faults_iff {α : Type} {x : Checked α} :
    (∃ fault, x = .error fault) ↔ ¬∃ a, x = .ok a := by
  cases x <;> simp

theorem Amount.exact_faults_iff {operation : Arithmetic} {i : Int} :
    (∃ fault, exact operation i = .error fault) ↔ ¬Fits i := by
  constructor
  · rintro ⟨fault, h⟩ fits
    obtain ⟨n, hn⟩ := exists_exact operation fits
    cases h.symm.trans hn
  · exact fun h => ⟨_, exact_of_not_fits h⟩

/-! ## Totals -/

namespace Bundle

/-- The total of a resource does not depend on the order of the entries. -/
theorem total_perm (h : b.entries.Perm b'.entries) (r : Resource) : b.total r = b'.total r := by
  obtain ⟨es⟩ := b
  obtain ⟨es'⟩ := b'
  change es.Perm es' at h
  induction h with
  | nil => rfl
  | cons e _ ih => rw [total_cons, total_cons, ih]
  | swap e e' es =>
    simp only [total_cons]
    omega
  | trans _ _ ih ih' => exact ih.trans ih'

theorem nonneg_perm (h : b.entries.Perm b'.entries) (nonneg : ∀ e ∈ b.entries, 0 ≤ e.2) :
    ∀ e ∈ b'.entries, 0 ≤ e.2 := fun e he => nonneg e (h.mem_iff.2 he)

/-- Entries that are not negative can be added up unless their total is too high. -/
theorem amountOf_faults_iff (nonneg : ∀ e ∈ b.entries, 0 ≤ e.2) (r : Resource) :
    (∃ fault, b.amountOf r = .error fault) ↔ 2147483647 < b.total r := by
  have low := total_nonneg nonneg r
  rw [amountOf_eq nonneg, Amount.exact_faults_iff]
  unfold Amount.Fits
  omega

end Bundle

/-! ## Adding -/

namespace Store

/-- Where balances move to is determined. -/
theorem Moves.unique {δ : Resource → Int} (h : Moves δ s t) (h' : Moves δ s u) : t = u := by
  have balances : t.balances = u.balances := by
    apply Table.ext_get
    intro r
    exact Int32.toInt_inj.1 ((h.balance r).trans (h'.balance r).symm)
  rw [h.rest, h'.rest, balances]

/-- Two orders of the same entries that can both be added come to the same store. -/
theorem addAll_unique (perm : b.entries.Perm b'.entries) (h : s.addAll b = .ok t)
    (h' : s.addAll b' = .ok u) : t = u := by
  have moves := Moves.of_addAll h'
  rw [← funext (Bundle.total_perm perm)] at moves
  exact (Moves.of_addAll h).unique moves

/-- The first of several entries can be added if what they come to together is not too high. -/
theorem exists_add {e : Resource × Amount} {es : List (Resource × Amount)}
    (nonneg : ∀ e' ∈ e :: es, 0 ≤ e'.2)
    (room : (s.balance e.1).toInt + Bundle.total ⟨e :: es⟩ e.1 ≤ 2147483647) :
    ∃ t, s.add e.1 e.2 = .ok t := by
  obtain ⟨he, hes⟩ := List.forall_mem_cons.1 nonneg
  have first := Amount.nonneg_iff.1 he
  have rest : 0 ≤ Bundle.total ⟨es⟩ e.1 := Bundle.total_nonneg hes e.1
  have low := (Amount.fits_toInt (s.balance e.1)).1
  rw [Bundle.total_cons, if_pos rfl] at room
  obtain ⟨m, hm⟩ := Amount.exists_exact .add
    (i := (s.balance e.1).toInt + e.2.toInt) (by unfold Amount.Fits; omega)
  exact ⟨_, Checked.bind_eq_ok.2 ⟨m, hm, rfl⟩⟩

/-- Entries that are not negative can be added if no balance ends too high. -/
theorem exists_addAll (nonneg : ∀ e ∈ b.entries, 0 ≤ e.2)
    (room : ∀ r, (s.balance r).toInt + b.total r ≤ 2147483647) : ∃ t, s.addAll b = .ok t := by
  obtain ⟨es⟩ := b
  unfold addAll
  induction es generalizing s with
  | nil => exact ⟨s, rfl⟩
  | cons e es ih =>
    obtain ⟨s₁, hfirst⟩ := exists_add nonneg (room e.1)
    have left (r : Resource) : (s₁.balance r).toInt + Bundle.total ⟨es⟩ r ≤ 2147483647 := by
      have sum := room r
      have moved := (Moves.of_add hfirst).balance r
      rw [Bundle.total_cons] at sum
      omega
    obtain ⟨t, ht⟩ := ih (List.forall_mem_cons.1 nonneg).2 left
    refine ⟨t, ?_⟩
    rw [List.foldlM_cons, hfirst]
    exact ht

/-- Adding entries that are not negative faults just where a balance would end too high. -/
theorem addAll_faults_iff (nonneg : ∀ e ∈ b.entries, 0 ≤ e.2) :
    (∃ fault, s.addAll b = .error fault) ↔
      ∃ r, 2147483647 < (s.balance r).toInt + b.total r := by
  rw [Checked.faults_iff]
  constructor
  · intro faults
    refine Classical.not_forall_not.1 fun below => faults ?_
    exact exists_addAll nonneg fun r => Int.not_lt.1 (below r)
  · rintro ⟨r, above⟩ ⟨t, ht⟩
    have ended := (Moves.of_addAll ht).balance r
    have high := (Amount.fits_toInt (t.balance r)).2
    omega

end Store

/-- Whatever is done entry by entry comes to the totals. What is added up for a resource is its
total, in exact integers. Where a bundle is added to a store, each balance is its old value and the
total, and nothing else has changed; so two orders of the same entries that can both be added come
to the same store. If no entry is negative, in every order of them a resource can be added up unless
its total exceeds the largest amount, and the bundle can be added unless some balance with its total
does. If the totals are amounts as well, the check whether a store covers the bundle does not fault
and compares the balances with the totals; and where it succeeds the entries can be taken one by
one, which leaves of each balance that they mention the balance less the total, not below zero. -/
theorem entries_come_to_totals (s : Store) (b : Bundle) :
    (∀ {r n}, b.amountOf r = .ok n → n.toInt = b.total r) ∧
    (∀ {t}, s.addAll b = .ok t → Store.Moves b.total s t) ∧
    (∀ {b' t u}, b.entries.Perm b'.entries → s.addAll b = .ok t → s.addAll b' = .ok u → t = u) ∧
    ((∀ e ∈ b.entries, 0 ≤ e.2) →
      (∀ {b'}, b.entries.Perm b'.entries →
        (∀ r, (∃ fault, b'.amountOf r = .error fault) ↔ 2147483647 < b.total r) ∧
        ((∃ fault, s.addAll b' = .error fault) ↔
          ∃ r, 2147483647 < (s.balance r).toInt + b.total r)) ∧
      ((∀ r, Amount.Fits (b.total r)) →
        s.covers b = .ok (s.Covers b) ∧
        (s.covers b = .ok true → ∃ t, s.withdrawAll b = .ok t ∧
          Store.Moves (fun r => -b.total r) s t ∧
          ∀ r, b.Asks r → (t.balance r).toInt = (s.balance r).toInt - b.total r ∧
            0 ≤ (t.balance r).toInt))) := by
  refine ⟨Bundle.amountOf_eq_ok, Store.Moves.of_addAll, Store.addAll_unique,
    fun nonneg => ⟨fun {b'} perm => ?_, ?_⟩⟩
  · have nonneg' := Bundle.nonneg_perm perm nonneg
    rw [funext (Bundle.total_perm perm)]
    exact ⟨Bundle.amountOf_faults_iff nonneg', Store.addAll_faults_iff nonneg'⟩
  · intro fits
    refine ⟨Store.covers_eq ⟨nonneg, fits⟩ s, fun covered => ?_⟩
    obtain ⟨t, ht, left⟩ := (Store.covers_of_covers covered).exists_withdrawAll nonneg
    have moves := Store.Moves.of_withdrawAll ht
    refine ⟨t, ht, moves, fun r asks => ⟨moves.balance r, ?_⟩⟩
    exact Amount.nonneg_iff.1 (left r asks)

/-- Five grain, with a wood between them. -/
def sheaves : Bundle := ⟨[(.grain, 2), (.wood, 1), (.grain, 3)]⟩

/-- The same, sorted. -/
def stacked : Bundle := ⟨[(.grain, 2), (.grain, 3), (.wood, 1)]⟩

/-- A store with so much grain and a wood. -/
def barn (grain : Amount) : Store := (Store.empty.setBalance .grain grain).setBalance .wood 1

/-- Either order brings a barn of four grain to nine; neither fits where there would be too much. Of
five grain they leave none. -/
theorem entries_come_to_totals_sheaves :
    (∃ t u, (barn 4).addAll sheaves = .ok t ∧ (barn 4).addAll stacked = .ok u ∧ t = u ∧
      (t.balance .grain).toInt = 4 + 5) ∧
    (∃ fault, (barn 2147483643).addAll stacked = .error fault) ∧
    (¬∃ fault, stacked.amountOf .grain = .error fault) ∧
    ∃ t, (barn 5).withdrawAll sheaves = .ok t ∧ (t.balance .grain).toInt = 5 - 5 := by
  have perm : sheaves.entries.Perm stacked.entries := .cons _ (.swap ..)
  have nonneg : ∀ e ∈ sheaves.entries, 0 ≤ e.2 := by decide
  have fits (r : Resource) : Amount.Fits (sheaves.total r) := by cases r <;> decide
  obtain ⟨-, added, unique, -⟩ := entries_come_to_totals (barn 4) sheaves
  have hsheaves : (barn 4).addAll sheaves = .ok _ := rfl
  have hstacked : (barn 4).addAll stacked = .ok _ := rfl
  obtain ⟨faults, -⟩ := (entries_come_to_totals (barn 2147483643) sheaves).2.2.2 nonneg
  obtain ⟨sums, sum⟩ := faults perm
  obtain ⟨-, payable⟩ := (entries_come_to_totals (barn 5) sheaves).2.2.2 nonneg
  obtain ⟨t, ht, -, left⟩ := (payable fits).2 rfl
  refine ⟨⟨_, _, hsheaves, hstacked, unique perm hsheaves hstacked, ?_⟩, sum.2 ⟨.grain, by decide⟩,
    mt (sums .grain).1 (by decide), t, ht, (left .grain ⟨_, List.mem_cons_self, rfl⟩).1⟩
  exact (added hsheaves).balance .grain

/-- With entries of both signs the order decides whether a bundle can be added. -/
example : (∃ t, (barn 2147483647).addAll ⟨[(.grain, -1), (.grain, 1)]⟩ = .ok t) ∧
    (barn 2147483647).addAll ⟨[(.grain, 1), (.grain, -1)]⟩ = .error (.overflow .add) :=
  ⟨⟨_, rfl⟩, rfl⟩

end Homestead
