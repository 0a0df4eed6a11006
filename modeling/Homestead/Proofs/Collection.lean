import Homestead.Farm
import Mathlib.Data.List.Nodup
import Mathlib.Data.List.Perm.Basic

/-!
# The collection of a farm

A farm's copies in collection order, seen through the place of an identifier: `Farm.slot f id` is
the position of the first copy of that identifier. Looking up, replacing and removing all mean that
place (`copy?_eq_getElem?`, `copies_replace`, `of_remove?_eq_some`), also when identifiers repeat.

Replacing a copy by one of its own identifier moves no place (`slot_replace`), so replacements at
one identifier overwrite each other (`replace_replace`).
-/

namespace Homestead.Farm

variable {f g : Farm} {c d : Copy} {id : CopyId} {store : Store}

/-- The identifiers of the owned copies, in collection order. -/
def ids (f : Farm) : List CopyId := f.copies.map Copy.id

/-- The position of the first copy of an identifier, the number of copies if there is none. -/
def slot (f : Farm) (id : CopyId) : Nat := f.copies.findIdx fun c => c.id = id

theorem ext_copies (seat : f.seat = g.seat) (store : f.store = g.store)
    (size : f.occupations.length = g.occupations.length) (copies : f.copies = g.copies) :
    f = g := by
  obtain ⟨ho, hi⟩ := List.append_inj copies size
  cases f
  cases g
  cases seat
  cases store
  cases ho
  cases hi
  rfl

/-! ## Looking a copy up -/

theorem copy?_eq_getElem? (f : Farm) (id : CopyId) : f.copy? id = f.copies[f.slot id]? :=
  List.find?_eq_getElem?_findIdx

theorem id_of_copy? (h : f.copy? id = some c) : c.id = id := by
  simpa using List.find?_some (p := fun c : Copy => c.id = id) h

theorem mem_of_copy? (h : f.copy? id = some c) : c ∈ f.copies := List.mem_of_find?_eq_some h

theorem copy?_eq_none_iff : f.copy? id = none ↔ id ∉ f.ids := by
  simp [copy?, ids]

theorem owns_iff : f.owns id ↔ id ∈ f.ids := by
  rw [owns, Option.isSome_iff_ne_none, ne_eq, copy?_eq_none_iff, not_not]

theorem exists_copy? (h : id ∈ f.ids) : ∃ c, f.copy? id = some c :=
  Option.isSome_iff_exists.1 (owns_iff.2 h)

theorem slot_lt_iff : f.slot id < f.copies.length ↔ id ∈ f.ids := by
  simp [slot, ids, List.findIdx_lt_length]

theorem slot_eq_of_ids (h : f.ids = g.ids) (id : CopyId) : f.slot id = g.slot id := by
  have (k : Farm) : k.slot id = k.ids.findIdx fun i => i = id := by
    rw [ids, List.findIdx_map]
    rfl
  rw [this, this, h]

theorem copy?_of_getElem? {k : Nat} (hk : f.copies[k]? = some c) (first : f.slot c.id = k) :
    f.copy? c.id = some c := by rw [copy?_eq_getElem?, first, hk]

/-- Where identifiers do not repeat, every copy is the one that its identifier means. -/
theorem copy?_of_mem (nodup : f.ids.Nodup) (h : c ∈ f.copies) : f.copy? c.id = some c := by
  obtain ⟨d, hd⟩ := exists_copy? (List.mem_map_of_mem h)
  rw [hd, List.inj_on_of_nodup_map nodup (mem_of_copy? hd) h (id_of_copy? hd)]

/-- Where identifiers do not repeat, it matters for a look-up only which copies there are. -/
theorem copy?_congr (hf : f.ids.Nodup) (hg : g.ids.Nodup)
    (same : ∀ c : Copy, c.id = id → (c ∈ g.copies ↔ c ∈ f.copies)) : g.copy? id = f.copy? id := by
  refine Option.ext fun c => ⟨fun h => ?_, fun h => ?_⟩
  · obtain rfl := id_of_copy? h
    exact copy?_of_mem hf ((same c rfl).1 (mem_of_copy? h))
  · obtain rfl := id_of_copy? h
    exact copy?_of_mem hg ((same c rfl).2 (mem_of_copy? h))

/-! ## Replacing a copy -/

theorem replaceFirst?_eq (c : Copy) (l : List Copy) :
    replaceFirst? c l =
      if l.findIdx (fun d => d.id = c.id) < l.length then
        some (l.set (l.findIdx fun d => d.id = c.id) c) else none := by
  induction l with
  | nil => rfl
  | cons d l ih =>
    rw [replaceFirst?, List.findIdx_cons]
    by_cases h : d.id = c.id
    · simp [h]
    · simp only [h, decide_false, cond_false, if_false, ih, List.length_cons]
      by_cases hl : l.findIdx (fun d => d.id = c.id) < l.length
      · rw [if_pos hl, if_pos (by omega)]
        rfl
      · rw [if_neg hl, if_neg (by omega)]
        rfl

@[simp] theorem seat_replace (f : Farm) (c : Copy) (store : Store) :
    (f.replace c store).seat = f.seat := by
  unfold replace
  split <;> rfl

@[simp] theorem store_replace (f : Farm) (c : Copy) (store : Store) :
    (f.replace c store).store = store := by
  unfold replace
  split <;> rfl

theorem length_occupations_replace (f : Farm) (c : Copy) (store : Store) :
    (f.replace c store).occupations.length = f.occupations.length := by
  unfold replace
  split
  · rename_i occupations h
    rw [replaceFirst?_eq] at h
    split at h
    · rw [← Option.some.inj h]
      exact List.length_set
    · cases h
  · rfl

theorem copies_replace (f : Farm) (c : Copy) (store : Store) :
    (f.replace c store).copies = f.copies.set (f.slot c.id) c := by
  unfold slot copies replace
  rw [List.findIdx_append, replaceFirst?_eq]
  by_cases ho : f.occupations.findIdx (fun d => d.id = c.id) < f.occupations.length
  · simp only [if_pos ho]
    rw [List.set_append_left _ _ ho]
  · simp only [if_neg ho]
    rw [List.set_append_right _ _ (Nat.le_add_left _ _), Nat.add_sub_cancel, replaceFirst?_eq]
    split
    · rfl
    · rename_i hi
      rw [List.set_eq_of_length_le (Nat.le_of_not_lt hi)]
      rfl

theorem ids_replace (f : Farm) (c : Copy) (store : Store) : (f.replace c store).ids = f.ids := by
  rw [ids, ids, copies_replace, List.map_set]
  refine List.ext_getElem? fun k => ?_
  by_cases hk : f.slot c.id = k
  · by_cases inside : k < f.copies.length
    · subst hk
      rw [List.getElem?_set_self (by simpa using inside), List.getElem?_map,
        ← copy?_eq_getElem?]
      obtain ⟨d, hd⟩ := exists_copy? (slot_lt_iff.1 inside)
      rw [hd, Option.map_some, id_of_copy? hd]
    · rw [List.set_eq_of_length_le (by simp; omega)]
  · rw [List.getElem?_set_ne hk]

theorem slot_replace (f : Farm) (c : Copy) (store : Store) (id : CopyId) :
    (f.replace c store).slot id = f.slot id := slot_eq_of_ids (ids_replace ..) id

theorem slot_injective {id' : CopyId} (h : id ∈ f.ids) (eq : f.slot id = f.slot id') :
    id = id' := by
  obtain ⟨c, hc⟩ := exists_copy? h
  have hc' : f.copy? id' = some c := by rw [copy?_eq_getElem?, ← eq, ← copy?_eq_getElem?, hc]
  rw [← id_of_copy? hc, id_of_copy? hc']

theorem copy?_replace (f : Farm) (c : Copy) (store : Store) (id : CopyId) :
    (f.replace c store).copy? id =
      if c.id = id then (f.copy? id).map fun _ => c else f.copy? id := by
  rw [copy?_eq_getElem?, slot_replace, copies_replace]
  by_cases h : c.id = id
  · subst h
    rw [if_pos rfl, List.getElem?_set]
    by_cases inside : f.slot c.id < f.copies.length
    · obtain ⟨d, hd⟩ := exists_copy? (slot_lt_iff.1 inside)
      rw [if_pos rfl, if_pos inside, hd]
      rfl
    · rw [if_pos rfl, if_neg inside, copy?_eq_none_iff.2 (mt slot_lt_iff.2 inside)]
      rfl
  · rw [if_neg h, copy?_eq_getElem?]
    by_cases owned : id ∈ f.ids
    · rw [List.getElem?_set_ne fun eq => h (slot_injective owned eq.symm).symm]
    · have outside : f.copies.length ≤ f.slot id := Nat.le_of_not_lt (mt slot_lt_iff.1 owned)
      rw [List.getElem?_eq_none (by simpa using outside), List.getElem?_eq_none outside]

/-- A copy that was put in its place is found there. -/
theorem copy?_replace_self (h : f.copy? id = some d) (hc : c.id = id) (store : Store) :
    (f.replace c store).copy? id = some c := by
  rw [copy?_replace, if_pos hc, h]
  rfl

theorem replace_replace (h : c.id = d.id) (s t : Store) :
    (f.replace c s).replace d t = f.replace d t := by
  refine ext_copies (by simp) (by simp) (by simp only [length_occupations_replace]) ?_
  rw [copies_replace, slot_replace, copies_replace, copies_replace, h, List.set_set]

theorem replace_self (h : f.copy? c.id = some c) : f.replace c f.store = f := by
  refine ext_copies (by simp) (by simp) (length_occupations_replace ..) ?_
  rw [copies_replace]
  refine List.ext_getElem? fun k => ?_
  by_cases hk : f.slot c.id = k
  · subst hk
    rw [copy?_eq_getElem?] at h
    rw [List.getElem?_set_self (List.getElem?_eq_some_iff.1 h).1, h]
  · rw [List.getElem?_set_ne hk]

/-! ## Adding a copy -/

@[simp] theorem store_add (f : Farm) (c : Copy) : (f.add c).store = f.store := by
  unfold add
  split <;> rfl

theorem copies_add_perm (f : Farm) (c : Copy) : (f.add c).copies.Perm (f.copies ++ [c]) := by
  unfold add copies
  split
  · simp only [addOccupation, List.append_assoc]
    exact List.Perm.append_left _ List.perm_append_comm
  · simp only [addImprovement, List.append_assoc]
    exact .refl _

theorem ids_add_perm (f : Farm) (c : Copy) : (f.add c).ids.Perm (f.ids ++ [c.id]) := by
  simpa [ids] using (copies_add_perm f c).map Copy.id

theorem mem_copies_add : d ∈ (f.add c).copies ↔ d ∈ f.copies ∨ d = c := by
  rw [(copies_add_perm f c).mem_iff, List.mem_append, List.mem_singleton]

theorem mem_ids_add : id ∈ (f.add c).ids ↔ id ∈ f.ids ∨ id = c.id := by
  rw [(ids_add_perm f c).mem_iff, List.mem_append, List.mem_singleton]

/-- A copy of an identifier that was free is the one that the identifier means. -/
theorem copy?_add_self (new : c.id ∉ f.ids) : (f.add c).copy? c.id = some c := by
  obtain ⟨d, hd⟩ := exists_copy? (mem_ids_add.2 (.inr rfl) : c.id ∈ (f.add c).ids)
  rcases mem_copies_add.1 (mem_of_copy? hd) with owned | rfl
  · exact absurd (id_of_copy? hd ▸ List.mem_map_of_mem owned) new
  · exact hd

theorem replaceFirst?_eq_none {l : List Copy} (new : ∀ d ∈ l, d.id ≠ c.id) :
    replaceFirst? c l = none := by
  induction l with
  | nil => rfl
  | cons d l ih =>
    rw [replaceFirst?, if_neg (new d List.mem_cons_self),
      ih fun e he => new e (List.mem_cons_of_mem d he)]
    rfl

theorem replaceFirst?_concat {l : List Copy} (new : ∀ d ∈ l, d.id ≠ c.id) (hd : d.id = c.id) :
    replaceFirst? c (l ++ [d]) = some (l ++ [c]) := by
  induction l with
  | nil => exact if_pos hd
  | cons e l ih =>
    rw [List.cons_append, replaceFirst?, if_neg (new e List.mem_cons_self),
      ih fun e' he' => new e' (List.mem_cons_of_mem e he')]
    rfl

/-- A copy that joined last and was replaced is the other copy joining last. -/
theorem replace_add (new : c.id ∉ f.ids) (id : d.id = c.id) (card : d.card = c.card)
    (s : Store) : (f.add c).replace d s = { f with store := s }.add d := by
  have ho : ∀ e ∈ f.occupations, e.id ≠ d.id := fun e he eq =>
    new (id ▸ eq ▸ List.mem_map_of_mem (List.mem_append_left _ he))
  have hi : ∀ e ∈ f.improvements, e.id ≠ d.id := fun e he eq =>
    new (id ▸ eq ▸ List.mem_map_of_mem (List.mem_append_right _ he))
  rw [add, add, card]
  split
  · rw [replace, addOccupation, replaceFirst?_concat ho id.symm]
    rfl
  · rw [replace, addImprovement, replaceFirst?_eq_none ho, replaceFirst?_concat hi id.symm]
    rfl

theorem add_store (f : Farm) (c : Copy) (s : Store) :
    { f.add c with store := s } = { f with store := s }.add c := by
  unfold add
  split <;> rfl

/-! ## Removing a copy -/

theorem takeFirst?_eq (id : CopyId) (l : List Copy) :
    takeFirst? id l =
      (l.find? fun c => c.id = id).map fun c => (c, l.eraseP fun c => c.id = id) := by
  induction l with
  | nil => rfl
  | cons c l ih =>
    rw [takeFirst?]
    by_cases h : c.id = id
    · simp [h]
    · rw [if_neg h, ih, List.find?_cons_of_neg (by simpa using h),
        List.eraseP_cons_of_neg (by simpa using h), Option.map_map]
      rfl

/-- A removed copy is the one that the identifier means, and nothing else leaves the farm. -/
theorem of_remove?_eq_some (h : f.remove? id = some (c, g)) :
    f.copy? id = some c ∧ g.copies = (f.copies.eraseP fun c => c.id = id) ∧ g.store = f.store := by
  unfold remove? at h
  simp only [takeFirst?_eq] at h
  unfold copy? copies
  cases ho : f.occupations.find? fun c => c.id = id with
  | some d =>
    rw [ho] at h
    obtain ⟨rfl, rfl⟩ := Prod.mk.inj (Option.some.inj h)
    have hd : d.id = id := by simpa using List.find?_some (p := fun c : Copy => c.id = id) ho
    refine ⟨by rw [List.find?_append, ho]; rfl, ?_, rfl⟩
    rw [List.eraseP_append_left (by simpa using hd) _ (List.mem_of_find?_eq_some ho)]
  | none =>
    rw [ho] at h
    simp only [Option.map_none, Option.map_map, Option.map_eq_some_iff] at h
    obtain ⟨d, hi, h⟩ := h
    obtain ⟨rfl, rfl⟩ := Prod.mk.inj h
    refine ⟨by rw [List.find?_append, ho, hi]; rfl, ?_, rfl⟩
    rw [List.eraseP_append_right _ (by simpa using ho)]

theorem ids_of_remove? (h : f.remove? id = some (c, g)) : g.ids = f.ids.erase id := by
  obtain ⟨-, hcopies, -⟩ := of_remove?_eq_some h
  rw [ids, ids, hcopies, List.erase_eq_eraseP', List.eraseP_map]
  congr 2

/-! ## Farms with the same cards -/

/-- The two farms own copies of the same identifiers and cards, in the same order; the stores and
the counters of the copies may differ. -/
structure SameCards (f g : Farm) : Prop where
  occupations : g.occupations.map (fun c => (c.id, c.card)) =
    f.occupations.map fun c => (c.id, c.card)
  improvements : g.improvements.map (fun c => (c.id, c.card)) =
    f.improvements.map fun c => (c.id, c.card)

namespace SameCards

variable {f g h : Farm}

theorem refl (f : Farm) : SameCards f f := ⟨rfl, rfl⟩

theorem trans (hfg : SameCards f g) (hgh : SameCards g h) : SameCards f h :=
  ⟨hgh.1.trans hfg.1, hgh.2.trans hfg.2⟩

theorem copies (h : SameCards f g) :
    g.copies.map (fun c => (c.id, c.card)) = f.copies.map fun c => (c.id, c.card) := by
  rw [Farm.copies, Farm.copies, List.map_append, List.map_append, h.occupations, h.improvements]

theorem of_copies (size : g.occupations.length = f.occupations.length)
    (h : g.copies.map (fun c => (c.id, c.card)) = f.copies.map fun c => (c.id, c.card)) :
    SameCards f g := by
  rw [Farm.copies, Farm.copies, List.map_append, List.map_append] at h
  obtain ⟨ho, hi⟩ := List.append_inj h (by simpa using size)
  exact ⟨ho, hi⟩

theorem ids (h : SameCards f g) : g.ids = f.ids := by
  simpa [Farm.ids, Function.comp_def] using congrArg (List.map Prod.fst) h.copies

theorem replace (hd : f.copy? c.id = some d) (card : c.card = d.card) (store : Store) :
    SameCards f (f.replace c store) := by
  refine of_copies (length_occupations_replace ..) ?_
  rw [copies_replace, List.map_set]
  refine List.ext_getElem? fun k => ?_
  by_cases hk : f.slot c.id = k
  · subst hk
    rw [copy?_eq_getElem?] at hd
    have inside := (List.getElem?_eq_some_iff.1 hd).1
    have hid : d.id = c.id := id_of_copy? ((copy?_eq_getElem? ..).trans hd)
    rw [List.getElem?_set_self (by simpa using inside), List.getElem?_map, hd, Option.map_some,
      card, hid]
  · rw [List.getElem?_set_ne hk]

theorem startRound (f : Farm) : SameCards f f.startRound := by
  constructor <;> simp [Farm.startRound, resetUses, Copy.resetUses, Function.comp_def]

end SameCards

end Homestead.Farm
