import Homestead.Document

/-!
# Forms that lose nothing

A written form is *lossless* if every written value is read back as itself (`Documented.Lossless`).
The forms of scalars and of kinds with names are, and lists, pairs, options and tables are if the
forms of what they hold are. An optional part needs one thing more: `null` stands for its absence,
so what is present must not be written as `null` (`Documented.Present`).

A record is read by the names of its fields alone (`Document.parts?_select`): other fields count for
nothing, and a missing one is as good as one that holds `null`.
-/

namespace Homestead

namespace Document

/-- The record of the named fields of a list, in the order of the names, where a missing one holds
`null`. -/
def select (names : List String) (fields : List (String × Document)) : Document :=
  .record (names.map fun name => (name, (fields.lookup name).getD null))

/-- The names of the fields of a record. -/
def names : Document → List String
  | record fields => fields.map Prod.fst
  | _ => []

theorem lookup_map_of_mem {names : List String} {name : String} (h : name ∈ names)
    (f : String → Document) : (names.map fun n => (n, f n)).lookup name = some (f name) := by
  induction names with
  | nil => cases h
  | cons n names ih =>
    rw [List.map_cons, List.lookup_cons]
    by_cases eq : name = n
    · rw [eq, beq_self_eq_true]
    · rw [beq_false_of_ne eq]
      exact ih ((List.mem_cons.1 h).resolve_left eq)

/-- Selecting fields by their names leaves the parts of those names as they were. -/
theorem parts?_select (names : List String) (fields : List (String × Document)) :
    (select names fields).parts? names = (record fields).parts? names := by
  rw [select, parts?, parts?]
  refine congrArg some (List.map_congr_left fun name h => ?_)
  rw [lookup_map_of_mem h]
  rfl

theorem fullTag?_tagged (name : String) (d : Document) :
    (tagged name d).fullTag? = some (name, d) := rfl

/-- A tag that carries something is not one that carries nothing. -/
theorem bareTag?_tagged {d : Document} (present : d ≠ null) (name : String) :
    (tagged name d).bareTag? = none := by
  cases d with
  | null => exact absurd rfl present
  | _ => rfl

end Document

/-- Setting the entries that a table has for some members brings its cells over for these. -/
theorem Table.get_foldl_set {κ α : Type} [DecidableEq κ] [Enumerated κ]
    (t u : Table κ (Option α)) (members : List κ) (k : κ) :
    ((members.filterMap fun j => (t.get j).map (j, ·)).foldl
        (fun u e => u.set e.1 (some e.2)) u).get k =
      if k ∈ members then (t.get k).or (u.get k) else u.get k := by
  induction members generalizing u with
  | nil => rfl
  | cons j members ih =>
    cases hj : t.get j with
    | none =>
      rw [List.filterMap_cons_none (by rw [hj]; rfl), ih]
      by_cases eq : k = j
      · subst eq
        simp [hj]
      · simp [eq]
    | some a =>
      rw [List.filterMap_cons_some (by rw [hj]; rfl), List.foldl_cons, ih, Table.get_set]
      by_cases eq : k = j
      · subst eq
        simp [hj]
      · simp [eq, Ne.symm eq]

namespace Documented

variable {α β κ : Type}

/-- A written form from which every value is read back. -/
class Lossless (α : Type) [Documented α] : Prop where
  read?_write : ∀ a : α, read? (write a) = some a

attribute [simp] Lossless.read?_write

/-- A written form that does not use `null`. -/
class Present (α : Type) [Documented α] : Prop where
  write_ne_null : ∀ a : α, write a ≠ .null

/-! ## Scalars and kinds with names -/

instance : Lossless Bool := ⟨fun _ => rfl⟩

instance : Lossless String := ⟨fun _ => rfl⟩

theorem readNat?_number (n : Nat) : readNat? (.number n) = some n := by
  simp [readNat?, readInt?]

instance : Lossless Nat := ⟨readNat?_number⟩

instance : Lossless Amount := ⟨Amount.ofInt?_toInt⟩

instance : Lossless Count where
  read?_write n := by
    change (readNat? (.number n.toNat)).bind Count.ofNat? = some n
    rw [readNat?_number]
    exact Count.ofNat?_eq_some_iff.2 rfl

instance : Lossless UInt8 where
  read?_write n := by
    change (readNat? (.number n.toNat)).bind _ = some n
    rw [readNat?_number, Option.bind_some, if_pos n.toNat_lt_size, UInt8.ofNat_toNat]

instance [DecidableEq κ] [Enumerated κ] : Lossless κ := ⟨Enumerated.ofName?_name⟩

instance : Present String := ⟨nofun⟩

instance : Present Count := ⟨nofun⟩

instance [DecidableEq κ] [Enumerated κ] : Present κ := ⟨nofun⟩

/-! ## Collections -/

section Collections

variable [Documented α] [Documented β] [Lossless α] [Lossless β]

instance [Present α] : Lossless (Option α) where
  read?_write
    | none => rfl
    | some a => by
      have present := Present.write_ne_null a
      have read := Lossless.read?_write a
      change read? (write a) = some (some a)
      generalize write a = d at present read
      cases d with
      | null => exact absurd rfl present
      | _ => exact congrArg (Option.map some) read

theorem mapM_read?_write (as : List α) : (as.map write).mapM read? = some as := by
  induction as with
  | nil => rfl
  | cons a as ih =>
    rw [List.map_cons, List.mapM_cons, Lossless.read?_write, ih]
    rfl

instance : Lossless (List α) := ⟨mapM_read?_write⟩

instance : Lossless (α × β) where
  read?_write ab := by
    change (read? (write ab.1)).bind (fun a => (read? (write ab.2)).bind fun b => some (a, b)) = _
    rw [Lossless.read?_write, Option.bind_some, Lossless.read?_write, Option.bind_some]

/-! ## Tables -/

variable [DecidableEq κ] [Enumerated κ]

theorem readCells?_writeCells (t : Table κ α) : readCells? (writeCells t) = some t := by
  change (read? (write t.cells)).bind Table.ofCells? = some t
  rw [Lossless.read?_write, Option.bind_some, Table.ofCells?, dif_pos t.length_cells]

/-- Reading written entries sets them in their order. -/
theorem foldlM_entries (entries : List (κ × α)) (t : Table κ (Option α)) :
    (entries.map fun e => (Enumerated.name e.1, write e.2)).foldlM
        (fun t field => return t.set (← Enumerated.ofName? field.1) (some (← read? field.2))) t =
      some (entries.foldl (fun t e => t.set e.1 (some e.2)) t) := by
  induction entries generalizing t with
  | nil => rfl
  | cons e entries ih =>
    rw [List.map_cons, List.foldlM_cons, Enumerated.ofName?_name, Lossless.read?_write]
    exact ih _

theorem readEntries?_writeEntries (t : Table κ (Option α)) :
    readEntries? (writeEntries t) = some t := by
  rw [writeEntries, readEntries?, foldlM_entries]
  refine congrArg some (Table.ext_get fun k => ?_)
  rw [Table.entries, Table.get_foldl_set, if_pos (Enumerated.mem_all k), Table.get_replicate,
    Option.or_none]

end Collections

end Documented

end Homestead
