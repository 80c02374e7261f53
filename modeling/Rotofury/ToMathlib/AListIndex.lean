import Rotofury.ToMathlib.AListSum

/-! # Indexes of finite maps

A table of records is indexed by a field when the index leads from every value of the field to the one record that has it.
The index stays one when a record with a new value is added under a new identifier, and when a record is removed from both.
-/

namespace AList

/-- A map without entries is the empty one. -/
theorem eq_empty_of_toFinmap {κ ρ : Type} {table : AList fun _ : κ => ρ}
    (same : table.toFinmap = (∅ : AList fun _ : κ => ρ).toFinmap) : table = ∅ := by
  have perm : table.entries.Perm (∅ : AList fun _ : κ => ρ).entries := toFinmap_eq.mp same
  exact ext perm.eq_nil

variable {ι κ ρ : Type} [DecidableEq κ]

section Indexes

variable [DecidableEq ι]

/-- The index leads to the records by a field. -/
def Indexes (index : AList fun _ : κ => ι) (table : AList fun _ : ι => ρ) (field : ρ → κ) : Prop :=
  ∀ key id, index.lookup key = some id ↔ ∃ record, table.lookup id = some record ∧ field record = key

namespace Indexes

variable {index : AList fun _ : κ => ι} {table : AList fun _ : ι => ρ} {field : ρ → κ}

theorem empty : Indexes (∅ : AList fun _ : κ => ι) (∅ : AList fun _ : ι => ρ) field := by
  intro key id
  simp

variable (indexes : Indexes index table field)
include indexes

/-- Records with the same field are the same. -/
theorem unique {id id' : ι} {record record' : ρ} (found : table.lookup id = some record)
    (found' : table.lookup id' = some record') (same : field record = field record') : id = id' ∧ record = record' := by
  have first := (indexes (field record) id).mpr ⟨record, found, rfl⟩
  have second := (indexes (field record) id').mpr ⟨record', found', same.symm⟩
  obtain rfl := Option.some.inj (first.symm.trans second)
  exact ⟨rfl, Option.some.inj (found.symm.trans found')⟩

/-- The index has every record of the table. -/
theorem lookup_field {id : ι} {record : ρ} (found : table.lookup id = some record) :
    index.lookup (field record) = some id :=
  (indexes _ _).mpr ⟨record, found, rfl⟩

theorem insert {id : ι} {record : ρ} (newId : table.lookup id = none) (newKey : index.lookup (field record) = none) :
    Indexes (index.insert (field record) id) (table.insert id record) field := by
  intro key other
  simp only [lookup_insert_eq_ite]
  by_cases sameKey : key = field record
  · subst sameKey
    rw [if_pos rfl]
    constructor
    · intro same
      obtain rfl := Option.some.inj same
      exact ⟨record, if_pos rfl, rfl⟩
    · rintro ⟨found, stored, fields⟩
      split at stored
      · next same => rw [same]
      · have known := indexes.lookup_field stored
        rw [fields, newKey] at known
        cases known
  · rw [if_neg sameKey, indexes]
    refine exists_congr fun found => and_congr_left fun fields => ?_
    split
    · next same =>
      rw [same, newId]
      constructor
      · rintro ⟨⟩
      · rintro ⟨⟩
        exact absurd fields.symm sameKey
    · rfl

theorem erase {id : ι} {record : ρ} (found : table.lookup id = some record) :
    Indexes (index.erase (field record)) (table.erase id) field := by
  intro key other
  by_cases sameKey : key = field record
  · subst sameKey
    rw [lookup_erase]
    constructor
    · rintro ⟨⟩
    · rintro ⟨left, stored, fields⟩
      by_cases same : other = id
      · rw [same, lookup_erase] at stored
        cases stored
      · rw [lookup_erase_ne same] at stored
        exact absurd (indexes.unique stored found fields).1 same
  · rw [lookup_erase_ne sameKey, indexes]
    refine exists_congr fun stored => and_congr_left fun fields => ?_
    by_cases same : other = id
    · subst same
      rw [found, lookup_erase]
      constructor
      · rintro ⟨⟩
        exact absurd fields.symm sameKey
      · rintro ⟨⟩
    · rw [lookup_erase_ne same]

end Indexes

end Indexes

section Filled

variable (key : ρ → κ) (value : ρ → ι)

/-- A map filled with a list of records; of two records with one key the later counts. -/
def filled (records : List ρ) (start : AList fun _ : κ => ι) : AList fun _ : κ => ι :=
  records.foldl (fun map record => map.insert (key record) (value record)) start

@[simp] theorem filled_nil (start : AList fun _ : κ => ι) : filled key value [] start = start := rfl

@[simp]
theorem filled_concat (records : List ρ) (record : ρ) (start : AList fun _ : κ => ι) :
    filled key value (records ++ [record]) start = (filled key value records start).insert (key record) (value record) := by
  simp [filled]

variable {key value} {records : List ρ}

/-- What is found in a filled map comes from a record. -/
theorem exists_of_lookup_filled {query : κ} {result : ι} (found : (filled key value records ∅).lookup query = some result) :
    ∃ record ∈ records, key record = query ∧ value record = result := by
  induction records using List.reverseRecOn with
  | nil => simp at found
  | append_singleton records last ih =>
    rw [filled_concat, lookup_insert_eq_ite] at found
    split at found
    · next same => exact ⟨last, by simp, same.symm, Option.some.inj found⟩
    · obtain ⟨record, inside, same, result⟩ := ih found
      exact ⟨record, List.mem_append_left _ inside, same, result⟩

/-- Every key of a record is found. -/
theorem mem_filled (key : ρ → κ) (value : ρ → ι) {record : ρ} (inside : record ∈ records) :
    ∃ result, (filled key value records ∅).lookup (key record) = some result := by
  induction records using List.reverseRecOn with
  | nil => simp at inside
  | append_singleton records last ih =>
    rw [filled_concat, lookup_insert_eq_ite]
    split
    · exact ⟨_, rfl⟩
    · next other =>
      rcases List.mem_append.mp inside with before | here
      · exact ih before
      · exact absurd (congrArg key (List.mem_singleton.mp here)) other

/-- Where records of one key agree, all of them count. -/
theorem lookup_filled_iff (agree : ∀ first ∈ records, ∀ second ∈ records, key first = key second → value first = value second)
    {query : κ} {result : ι} : (filled key value records ∅).lookup query = some result ↔
      ∃ record ∈ records, key record = query ∧ value record = result := by
  refine ⟨exists_of_lookup_filled, ?_⟩
  rintro ⟨record, inside, rfl, rfl⟩
  obtain ⟨found, lookup⟩ := mem_filled key value inside
  obtain ⟨other, isOther, same, rfl⟩ := exists_of_lookup_filled lookup
  rw [lookup, agree other isOther record inside same]

end Filled

section Pairs

/-- The entries of a map as they are written to a file. -/
def pairs (table : AList fun _ : κ => ρ) : List (κ × ρ) := table.entries.map fun entry => (entry.1, entry.2)

/-- The map read back from such a file. -/
def ofPairs (records : List (κ × ρ)) : AList fun _ : κ => ρ := filled Prod.fst Prod.snd records ∅

theorem mem_pairs_iff {table : AList fun _ : κ => ρ} {record : κ × ρ} :
    record ∈ table.pairs ↔ table.lookup record.1 = some record.2 := by
  constructor
  · intro inside
    obtain ⟨entry, isEntry, rfl⟩ := List.mem_map.mp inside
    exact mem_lookup_iff.mpr isEntry
  · intro found
    exact List.mem_map.mpr ⟨⟨record.1, record.2⟩, mem_lookup_iff.mp found, rfl⟩

/-- A map comes back as it was written, up to the order of its entries. -/
theorem toFinmap_ofPairs (table : AList fun _ : κ => ρ) : (ofPairs table.pairs).toFinmap = table.toFinmap := by
  refine Finmap.ext_lookup fun query => Option.ext fun record => ?_
  rw [Finmap.lookup_toFinmap, Finmap.lookup_toFinmap, ofPairs, lookup_filled_iff]
  · constructor
    · rintro ⟨other, inside, rfl, rfl⟩
      exact mem_pairs_iff.mp inside
    · intro found
      exact ⟨(query, record), mem_pairs_iff.mpr found, rfl, rfl⟩
  · intro first isFirst second isSecond same
    have found := mem_pairs_iff.mp isFirst
    rw [same, mem_pairs_iff.mp isSecond] at found
    exact (Option.some.inj found).symm

theorem lookup_congr {first second : AList fun _ : κ => ρ} (same : first.toFinmap = second.toFinmap) (query : κ) :
    first.lookup query = second.lookup query := by
  rw [← Finmap.lookup_toFinmap, same, Finmap.lookup_toFinmap]

theorem toFinmap_insert_congr {first second : AList fun _ : κ => ρ} (same : first.toFinmap = second.toFinmap) (query : κ)
    (record : ρ) : (first.insert query record).toFinmap = (second.insert query record).toFinmap := by
  rw [← Finmap.insert_toFinmap, same, Finmap.insert_toFinmap]

theorem toFinmap_erase_congr {first second : AList fun _ : κ => ρ} (same : first.toFinmap = second.toFinmap) (query : κ) :
    (first.erase query).toFinmap = (second.erase query).toFinmap := by
  rw [← Finmap.erase_toFinmap, same, Finmap.erase_toFinmap]

end Pairs

end AList
