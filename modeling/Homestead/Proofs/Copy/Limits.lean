import Homestead.Proofs.Copy.Life

/-!
# Limits over a life

A counter counts the applications of its effect since the last reset, or over the whole life if the
effect may be applied once, and stops at the largest count (`Uses.Course.count`). So a limit bounds
the applications that it was meant to bound: `Abides` lists the bounds, and `Life.abides` shows them
for every life of a new copy.
-/

namespace Homestead

/-- How often the effect at a position was applied. -/
def applications (i : Nat) (acts : List Act) : Nat := acts.count (.attempt i .applied)

/-- Is the act an attempt at the effect at a position? -/
def Act.isAt (i : Nat) : Act → Bool
  | attempt j _ => j = i
  | reset => false

/-- How often the effect at a position was attempted. -/
def attempts (i : Nat) (acts : List Act) : Nat := acts.countP (Act.isAt i)

/-- The acts since the last reset. -/
def sinceReset : List Act → List Act
  | [] => []
  | act :: acts => if .reset ∈ act :: acts then sinceReset acts else act :: acts

/-- Does a round start after these acts? -/
def AtRoundStart (past : List Act) : Prop := past = [] ∨ ∃ acts, past = acts ++ [.reset]

/-- The limits of a card's effects hold over the acts that made `c` of a new copy of the card, and
the counters tell the applications. -/
structure Copy.Abides (card : Card) (acts : List Act) (c : Copy) : Prop where
  card_eq : c.card = card
  length_eq : c.uses.length = card.effects.length
  unknown : ∀ {i}, card.effects[i]? = none → applications i acts = 0
  once : ∀ {i e}, card.effects[i]? = some e → e.limit = .once → applications i acts ≤ 1
  perRound : ∀ {i e n past round rest}, card.effects[i]? = some e → e.limit = .perRound n →
    acts = past ++ round ++ rest → .reset ∉ round → applications i round ≤ n.toNat
  exact : ∀ {i e n past round rest}, card.effects[i]? = some e → e.limit = .perRound n →
    acts = past ++ round ++ rest → AtRoundStart past → .reset ∉ round →
    .attempt i .refused ∉ round → applications i round = min (attempts i round) n.toNat
  uses : ∀ {i e}, card.effects[i]? = some e → ∃ u, c.uses[i]? = some u ∧
    u.count.toNat =
      min (applications i (if e.limit = .once then acts else sinceReset acts)) (UInt32.size - 1)

variable {i : Nat} {limit : Limit} {n : Count} {acts : List Act} {u v : Uses}

/-! ## Rounds -/

theorem exists_sinceReset (acts : List Act) :
    ∃ past, acts = past ++ sinceReset acts ∧ AtRoundStart past ∧ .reset ∉ sinceReset acts := by
  induction acts with
  | nil => exact ⟨[], rfl, .inl rfl, List.not_mem_nil⟩
  | cons act acts ih =>
    rw [sinceReset]
    split
    · rename_i hmem
      obtain ⟨past, hacts, start, noReset⟩ := ih
      refine ⟨act :: past, by rw [List.cons_append, ← hacts], ?_, noReset⟩
      obtain rfl | ⟨acts', rfl⟩ := start
      · -- nothing precedes the last round of the rest, so the reset is the first act
        rw [List.nil_append] at hacts
        rcases List.mem_cons.1 hmem with rfl | hmem
        · exact .inr ⟨[], rfl⟩
        · exact absurd (hacts ▸ hmem) noReset
      · exact .inr ⟨act :: acts', rfl⟩
    · rename_i noReset
      exact ⟨[], rfl, .inl rfl, noReset⟩

/-! ## Counters -/

namespace Uses.Course

/-- A counter that no reset takes back counts the applications, up to the largest count. -/
theorem count (h : Course i limit acts u v) (kept : limit = .once ∨ .reset ∉ acts) :
    v.count.toNat = min (u.count.toNat + applications i acts) (UInt32.size - 1) := by
  induction h with
  | @nil u =>
    have := u.count.toNat_lt_size
    simp only [applications, List.count_nil]
    omega
  | @cons act acts u v w hact hrest ih =>
    have ih := ih (kept.imp_right fun noReset hmem => noReset (List.mem_cons_of_mem _ hmem))
    cases hact with
    | applied =>
      have hsucc := Count.toNat_succ u.count
      simp only [applications, List.count_cons_self] at ih ⊢
      omega
    | declined | refused => simpa [applications] using ih
    | other ne => simpa [applications, ne] using ih
    | reset =>
      rcases kept with rfl | noReset
      · simpa [applications, reset] using ih
      · exact absurd List.mem_cons_self noReset

/-- An effect that may be applied once is applied at most once, resets or not. -/
theorem once (h : Course i .once acts u v) : applications i acts ≤ 1 - u.count.toNat := by
  induction h with
  | nil => exact Nat.zero_le _
  | @cons act acts u v w hact hrest ih =>
    cases hact with
    | applied allowed =>
      have hzero : u.count = 0 := by simpa [allows] using allowed
      have hzero : u.count.toNat = 0 := congrArg UInt32.toNat hzero
      have hsize : 1 < UInt32.size := by decide
      have hsucc := Count.toNat_succ u.count
      simp only [applications, List.count_cons_self] at ih ⊢
      omega
    | declined | refused => simpa [applications] using ih
    | other ne => simpa [applications, ne] using ih
    | reset => simpa [applications, reset] using ih

/-- Without a reset an effect is applied at most as often as its limit leaves open. -/
theorem perRound (h : Course i (.perRound n) acts u v) (noReset : .reset ∉ acts) :
    applications i acts ≤ n.toNat - u.count.toNat := by
  induction h with
  | nil => exact Nat.zero_le _
  | @cons act acts u v w hact hrest ih =>
    have ih := ih fun hmem => noReset (List.mem_cons_of_mem _ hmem)
    cases hact with
    | applied allowed =>
      have hlt : u.count.toNat < n.toNat := by simpa [allows, UInt32.lt_iff_toNat_lt] using allowed
      have hmax := n.toNat_lt_size
      have hsucc := Count.toNat_succ u.count
      simp only [applications, List.count_cons_self] at ih ⊢
      omega
    | declined | refused => simpa [applications] using ih
    | other ne => simpa [applications, ne] using ih
    | reset => exact absurd List.mem_cons_self noReset

/-- Without a reset and without a refusal every attempt that the limit leaves open succeeds. -/
theorem exact (h : Course i (.perRound n) acts u v) (noReset : .reset ∉ acts)
    (noRefusal : .attempt i .refused ∉ acts) :
    applications i acts = min (attempts i acts) (n.toNat - u.count.toNat) := by
  induction h with
  | nil => simp [applications, attempts]
  | @cons act acts u v w hact hrest ih =>
    have ih := ih (fun hmem => noReset (List.mem_cons_of_mem _ hmem))
      fun hmem => noRefusal (List.mem_cons_of_mem _ hmem)
    cases hact with
    | applied allowed =>
      have hlt : u.count.toNat < n.toNat := by simpa [allows, UInt32.lt_iff_toNat_lt] using allowed
      have hmax := n.toNat_lt_size
      have hsucc := Count.toNat_succ u.count
      simp only [applications, attempts, List.count_cons_self, Act.isAt, decide_true,
        List.countP_cons_of_pos] at ih ⊢
      omega
    | declined no =>
      have hle : n.toNat ≤ u.count.toNat := by simpa [allows, UInt32.le_iff_toNat_le] using no
      have hnone : applications i (.attempt i .declined :: acts) = applications i acts := by
        simp [applications]
      omega
    | refused => exact absurd List.mem_cons_self noRefusal
    | other ne => simpa [applications, attempts, Act.isAt, ne] using ih
    | reset => exact absurd List.mem_cons_self noReset

/-- A round starts with a fresh counter unless the effect may be applied once. -/
theorem fresh_of_atRoundStart (h : Course i limit acts .fresh u) (start : AtRoundStart acts)
    (ne : limit ≠ .once) : u = .fresh := by
  obtain rfl | ⟨past, rfl⟩ := start
  · cases h
    rfl
  · obtain ⟨v, -, hlast⟩ := h.split
    obtain _ | ⟨_ | _ | _ | _ | _, _ | _⟩ := hlast
    cases limit with
    | once => exact absurd rfl ne
    | _ => rfl

/-- The count of a counter that started fresh. -/
theorem count_of_fresh (h : Course i limit acts .fresh u) :
    u.count.toNat =
      min (applications i (if limit = .once then acts else sinceReset acts)) (UInt32.size - 1) := by
  split
  · rename_i once
    rw [h.count (.inl once)]
    simp [fresh]
  · rename_i ne
    obtain ⟨past, hacts, start, noReset⟩ := exists_sinceReset acts
    rw [hacts] at h
    obtain ⟨v, hpast, hround⟩ := h.split
    obtain rfl := hpast.fresh_of_atRoundStart start ne
    rw [hround.count (.inr noReset)]
    simp [fresh]

end Uses.Course

/-! ## Copies -/

/-- The limits hold over every life of a new copy. -/
theorem Copy.Life.abides {id : CopyId} {card : Card} {c : Copy} (h : Life (.new id card) acts c) :
    Abides card acts c := by
  have hall := h.undergoes (by simp [Copy.new])
  have hcourse : ∀ {i e}, card.effects[i]? = some e →
      ∃ u, c.uses[i]? = some u ∧ Uses.Course i e.limit acts .fresh u := fun {i e} he => by
    refine hall.course he ?_
    rw [Copy.new, List.getElem?_map]
    exact congrArg _ he
  refine ⟨hall.card, ?_, fun {i} he => List.count_eq_zero.2 (hall.unknown he), ?_, ?_, ?_, ?_⟩
  · rw [hall.length]
    simp [Copy.new]
  · intro i e he limit
    obtain ⟨u, -, hu⟩ := hcourse he
    exact (limit ▸ hu).once
  · intro i e n past round rest he limit hacts noReset
    obtain ⟨u, -, hu⟩ := hcourse he
    rw [limit, hacts] at hu
    obtain ⟨v, hpast, -⟩ := hu.split
    obtain ⟨w, -, hround⟩ := hpast.split
    exact Nat.le_trans (hround.perRound noReset) (Nat.sub_le _ _)
  · intro i e n past round rest he limit hacts start noReset noRefusal
    obtain ⟨u, -, hu⟩ := hcourse he
    rw [limit, hacts] at hu
    obtain ⟨v, hpast, -⟩ := hu.split
    obtain ⟨w, hpast, hround⟩ := hpast.split
    obtain rfl := hpast.fresh_of_atRoundStart start nofun
    exact hround.exact noReset noRefusal
  · intro i e he
    obtain ⟨u, hu, hcourse⟩ := hcourse he
    exact ⟨u, hu, hcourse.count_of_fresh⟩

end Homestead
