import Homestead.Proofs.Accounts

/-!
# Checks and payments that cannot fault

A bundle is proper if it has no negative entry and what it declares for each resource fits an
amount. To check whether a store covers a proper bundle is to compare exact totals
(`Store.covers_eq`, `Store.shortOf?_eq`). A store that covers a bundle without negative entries can
pay it: what was taken of a balance at any time is no more than the total, which the balance
reaches (`Store.Covers.exists_withdrawAll`).
-/

namespace Homestead

/-- The bundle has an entry for the resource. -/
def Bundle.Asks (b : Bundle) (r : Resource) : Prop := ∃ e ∈ b.entries, e.1 = r

/-- No entry is negative, and the total of each resource is an amount. -/
structure Bundle.Proper (b : Bundle) : Prop where
  nonneg : ∀ e ∈ b.entries, 0 ≤ e.2
  fits : ∀ r, Amount.Fits (b.total r)

instance (b : Bundle) (r : Resource) : Decidable (b.Asks r) :=
  inferInstanceAs (Decidable (∃ e ∈ b.entries, e.1 = r))

instance (s : Store) (b : Bundle) : Decidable (s.Covers b) :=
  inferInstanceAs (Decidable (∀ e ∈ b.entries, b.total e.1 ≤ (s.balance e.1).toInt))

variable {s t : Store} {b : Bundle} {r : Resource} {n : Amount}

theorem Amount.nonneg_iff : 0 ≤ n ↔ 0 ≤ n.toInt := Int32.le_iff_toInt_le

theorem Amount.exists_exact {i : Int} (operation : Arithmetic) (h : Fits i) :
    ∃ n, exact operation i = .ok n := by
  obtain ⟨n, hn⟩ := exists_toInt_eq h
  exact ⟨n, exact_eq_ok_iff.2 hn⟩

theorem Amount.exact_of_not_fits {operation : Arithmetic} {i : Int} (h : ¬Fits i) :
    exact operation i = .error (.overflow operation) := by
  rw [exact, ofInt?, if_neg h]

/-! ## Totals -/

theorem Amount.sum_nonneg {ns : List Amount} (nonneg : ∀ n ∈ ns, 0 ≤ n) :
    0 ≤ ns.foldr (fun n sum => n.toInt + sum) 0 := by
  induction ns with
  | nil => exact Int.le_refl 0
  | cons m ns ih =>
    obtain ⟨hm, hns⟩ := List.forall_mem_cons.1 nonneg
    exact Int.add_nonneg (nonneg_iff.1 hm) (ih hns)

/-- Amounts that are not negative add up to their sum if there is an amount for it: no partial sum
exceeds it. -/
theorem Amount.foldlM_plus {ns : List Amount} {a : Amount} (nonneg : ∀ n ∈ ns, 0 ≤ n) :
    ns.foldlM plus a = exact .add (a.toInt + ns.foldr (fun n sum => n.toInt + sum) 0) := by
  induction ns generalizing a with
  | nil => exact (exact_eq_ok_iff.2 (Int.add_zero _).symm).symm
  | cons m ns ih =>
    obtain ⟨hm, hns⟩ := List.forall_mem_cons.1 nonneg
    have first := nonneg_iff.1 hm
    have rest := sum_nonneg hns
    have low := (fits_toInt a).1
    rw [List.foldlM_cons, List.foldr_cons, plus]
    by_cases fits : Fits (a.toInt + m.toInt)
    · obtain ⟨a', ha'⟩ := exists_exact .add fits
      rw [ha', Checked.ok_bind, ih hns, exact_eq_ok_iff.1 ha', Int.add_assoc]
    · -- what is added later does not bring the sum back
      have above : ¬Fits (a.toInt + (m.toInt + ns.foldr (fun n sum => n.toInt + sum) 0)) := by
        unfold Fits at *
        omega
      rw [exact_of_not_fits fits, exact_of_not_fits above]
      rfl

namespace Bundle

theorem total_eq_zero_of_not_asks (h : ¬b.Asks r) : b.total r = 0 :=
  total_eq_zero fun e he eq => h ⟨e, he, eq⟩

/-- The first entries of a bundle without negative ones take no more than all of them. -/
theorem total_prefix_le {es : List (Resource × Amount)} (nonneg : ∀ e ∈ b.entries, 0 ≤ e.2)
    (h : es <+: b.entries) (r : Resource) : total ⟨es⟩ r ≤ b.total r := by
  obtain ⟨rest, hrest⟩ := h
  have left : 0 ≤ total ⟨rest⟩ r :=
    total_nonneg (fun e he => nonneg e (hrest ▸ List.mem_append_right es he)) r
  have sum : b.total r = total ⟨es⟩ r + total ⟨rest⟩ r := by
    rw [← total_append, hrest]
  omega

/-- What a bundle without negative entries declares for a resource is its total, if there is an
amount for it. -/
theorem amountOf_eq (nonneg : ∀ e ∈ b.entries, 0 ≤ e.2) (r : Resource) :
    b.amountOf r = Amount.exact .add (b.total r) := by
  have declared : ∀ n ∈ b.amountsOf r, 0 ≤ n := by
    intro n hn
    obtain ⟨e, he, rfl⟩ := List.mem_map.1 hn
    exact nonneg e (List.mem_filter.1 he).1
  rw [amountOf, Amount.foldlM_plus declared]
  exact congrArg _ (Int.zero_add _)

end Bundle

/-! ## Checks -/

namespace Store

theorem covers_iff : s.Covers b ↔ ∀ r, b.Asks r → b.total r ≤ (s.balance r).toInt := by
  constructor
  · rintro h _ ⟨e, he, rfl⟩
    exact h e he
  · exact fun h e he => h e.1 ⟨e, he, rfl⟩

theorem fallsShort_eq (h : b.Proper) (s : Store) (r : Resource) :
    s.fallsShort b r = .ok ((s.balance r).toInt < b.total r) := by
  obtain ⟨n, hn⟩ := Amount.exists_exact .add (h.fits r)
  rw [← Bundle.amountOf_eq h.nonneg] at hn
  rw [fallsShort, hn, Checked.ok_bind, ← Bundle.amountOf_eq_ok hn]
  simp only [Int32.lt_iff_toInt_lt]
  rfl

/-- The check for a shortage finds the first entry whose resource does not reach its total. -/
theorem shortOf?_eq (h : b.Proper) (s : Store) :
    s.shortOf? b =
      .ok ((b.entries.find? fun e => (s.balance e.1).toInt < b.total e.1).map Prod.fst) := by
  rw [shortOf?, Checked.findM?_eq b.entries fun e _ => fallsShort_eq h s e.1]
  rfl

theorem covers_eq (h : b.Proper) (s : Store) : s.covers b = .ok (s.Covers b) := by
  rw [covers, Checked.allM_eq (q := fun e => !decide ((s.balance e.1).toInt < b.total e.1))]
  · refine congrArg _ (Bool.eq_iff_iff.2 ?_)
    simp only [List.all_eq_true, Bool.not_eq_true', decide_eq_false_iff_not, Int.not_lt,
      decide_eq_true_eq]
    exact Iff.rfl
  · intro e _
    rw [fallsShort_eq h s e.1]
    rfl

/-! ## Payments -/

/-- The first entry of what a store covers can be taken, and what is left covers the other ones. -/
theorem Covers.exists_withdraw {e : Resource × Amount} {es : List (Resource × Amount)}
    (h : s.Covers ⟨e :: es⟩) (nonneg : ∀ e' ∈ e :: es, 0 ≤ e'.2) :
    ∃ t, s.withdraw e.1 e.2 = .ok t ∧ t.Covers ⟨es⟩ := by
  obtain ⟨he, hes⟩ := List.forall_mem_cons.1 nonneg
  have first := Amount.nonneg_iff.1 he
  have rest : 0 ≤ Bundle.total ⟨es⟩ e.1 := Bundle.total_nonneg hes e.1
  have reached := h e List.mem_cons_self
  have below := (Amount.fits_toInt (s.balance e.1)).2
  rw [Bundle.total_cons, if_pos rfl] at reached
  obtain ⟨m, hm⟩ := Amount.exists_exact .subtract
    (i := (s.balance e.1).toInt - e.2.toInt) (by unfold Amount.Fits; omega)
  have taken : s.withdraw e.1 e.2 = .ok (s.setBalance e.1 m) := Checked.bind_eq_ok.2 ⟨m, hm, rfl⟩
  refine ⟨_, taken, fun e' he' => ?_⟩
  have before := h e' (List.mem_cons_of_mem e he')
  have after := (Moves.of_withdraw taken).balance e'.1
  rw [Bundle.total_cons] at before
  omega

/-- A store that covers a bundle without negative entries can pay it, and has no debt afterwards in
what it paid. -/
theorem Covers.exists_withdrawAll (h : s.Covers b) (nonneg : ∀ e ∈ b.entries, 0 ≤ e.2) :
    ∃ t, s.withdrawAll b = .ok t ∧ ∀ r, b.Asks r → 0 ≤ t.balance r := by
  have paid : ∃ t, s.withdrawAll b = .ok t := by
    obtain ⟨es⟩ := b
    unfold withdrawAll
    induction es generalizing s with
    | nil => exact ⟨s, rfl⟩
    | cons e es ih =>
      obtain ⟨s₁, hfirst, covered⟩ := h.exists_withdraw nonneg
      obtain ⟨t, ht⟩ := ih covered (List.forall_mem_cons.1 nonneg).2
      refine ⟨t, ?_⟩
      rw [List.foldlM_cons, hfirst]
      exact ht
  obtain ⟨t, ht⟩ := paid
  refine ⟨t, ht, ?_⟩
  rintro r ⟨e, he, rfl⟩
  have reached := h e he
  have left := (Moves.of_withdrawAll ht).balance e.1
  rw [Amount.nonneg_iff]
  omega

end Store

end Homestead
