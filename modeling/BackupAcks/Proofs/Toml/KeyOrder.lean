import BackupAcks.Toml.Document
import BackupAcks.Proofs.Text.ByteOrder
import Mathlib.Data.List.Nodup

/-!
# The keys of a document

While a document is read, an entry is made only where its key is new, and whatever else changes a
table leaves its keys as they are or moves one of them to the end. So every key of the document has
one entry, and sorting the entries puts their keys in the strict order of their bytes.

Results:
* `keeps_descend`, `distinct_lines`: no key gets a second entry;
* `ordered_of_parse`: the keys of a document are in the order of their bytes, each of them once;
* `find?_eq_some_iff`: looking a key up in such a table.
-/
namespace BackupAcks.Toml

/-! ## While the document is read -/

/-- Every key has one entry. -/
def Entries.Distinct (t : Entries) : Prop := (t.map Prod.fst).Nodup

/-- The change gives no key a second entry. -/
def Keeps (f : Entries → Option Entries) : Prop :=
  ∀ t t', f t = some t' → Entries.Distinct t → Entries.Distinct t'

variable {k : String} {i : Item} {t t' : Entries} {r r' : Reading} {cs rest : List Char}

theorem not_mem_keys_of_lookUp (h : lookUp k t = none) : k ∉ t.map Prod.fst := by
  intro hk
  obtain ⟨e, he, rfl⟩ := List.mem_map.1 hk
  exact List.find?_eq_none.1 (Option.map_eq_none_iff.1 h) e he (beq_self_eq_true _)

theorem Entries.Distinct.concat (ht : Entries.Distinct t) (h : k ∉ t.map Prod.fst) :
    Entries.Distinct (t ++ [(k, i)]) := by
  rw [Distinct, List.map_append]
  exact List.nodup_append_comm.1 (List.nodup_cons.2 ⟨h, ht⟩)

theorem keys_replace : (replace k i t).map Prod.fst = t.map Prod.fst := by
  rw [replace, List.map_map]
  refine List.map_congr_left fun e _ => ?_
  by_cases he : e.1 = k
  · simp [he]
  · simp [he]

theorem Entries.Distinct.replace (ht : Entries.Distinct t) :
    Entries.Distinct (Toml.replace k i t) := by
  rwa [Distinct, keys_replace]

theorem Entries.Distinct.remove (ht : Entries.Distinct t) : Entries.Distinct (Toml.remove k t) :=
  ht.sublist (List.filter_sublist.map _)

theorem not_mem_keys_remove : k ∉ (remove k t).map Prod.fst := by
  intro hk
  obtain ⟨e, he, rfl⟩ := List.mem_map.1 hk
  simpa using (List.mem_filter.1 he).2

/-- What a change at the end of a path does to the keys of the table at its beginning: the change
itself if the path is empty, and else no more than a new key where there was none. -/
theorem keeps_descend {f : Bool → Entries → Option Entries} (hf : ∀ dotted, Keeps (f dotted))
    (byDots : Bool) (path : List String) (dotted : Bool) : Keeps (descend byDots f path dotted) := by
  intro t t' h ht
  cases path with
  | nil => exact hf dotted t t' h ht
  | cons k path =>
    rw [descend] at h
    split at h
    · rename_i hk
      obtain ⟨sub, -, hsub⟩ := Option.bind_eq_some_iff.1 h
      cases hsub
      exact ht.concat (not_mem_keys_of_lookUp hk)
    · cases h
    · split at h
      · cases h
      · obtain ⟨sub, -, hsub⟩ := Option.bind_eq_some_iff.1 h
        cases hsub
        exact ht.replace
    · cases h
    · obtain ⟨current, -, hcurrent⟩ := Option.bind_eq_some_iff.1 h
      cases hcurrent
      exact ht.replace

theorem keeps_addEntry (path : List String) (v : Value) : Keeps (addEntry path v) := by
  intro t t' h
  unfold addEntry at h
  split at h
  · cases h
  · rename_i last _
    refine keeps_descend (fun dotted => ?_) true _ false t t' h
    intro t t' h ht
    dsimp only at h
    split at h
    · cases h
    · rename_i hnew
      rw [Bool.or_eq_true, not_or, Option.not_isSome_iff_eq_none] at hnew
      cases h
      exact ht.concat (not_mem_keys_of_lookUp hnew.2)

theorem keeps_openTable (path : List String) : Keeps (openTable path) := by
  intro t t' h
  unfold openTable at h
  split at h
  · cases h
  · rename_i last _
    refine keeps_descend (fun _ => ?_) false _ false t t' h
    intro t t' h ht
    dsimp only at h
    split at h
    · rename_i hnew
      cases h
      exact ht.concat (not_mem_keys_of_lookUp hnew)
    · cases h
      exact ht.remove.concat not_mem_keys_remove
    · cases h

theorem keeps_openElement (path : List String) : Keeps (openElement path) := by
  intro t t' h
  unfold openElement at h
  split at h
  · cases h
  · rename_i last _
    refine keeps_descend (fun _ => ?_) false _ false t t' h
    intro t t' h ht
    dsimp only at h
    split at h
    · rename_i hnew
      cases h
      exact ht.concat (not_mem_keys_of_lookUp hnew)
    · cases h
      exact ht.replace
    · cases h

theorem distinct_header (h : header r cs = some (r', rest)) (hr : Entries.Distinct r.root) :
    Entries.Distinct r'.root := by
  unfold header at h
  split at h
  · simp only [Option.bind_eq_bind, Option.bind_eq_some_iff] at h
    obtain ⟨⟨path, _⟩, -, _, -, _, -, root, hroot, h⟩ := h
    cases h
    exact keeps_openElement path _ _ hroot hr
  · simp only [Option.bind_eq_bind, Option.bind_eq_some_iff] at h
    obtain ⟨⟨path, _⟩, -, _, -, root, hroot, h⟩ := h
    cases h
    exact keeps_openTable path _ _ hroot hr
  · cases h

theorem distinct_entry (h : entry r cs = some (r', rest)) (hr : Entries.Distinct r.root) :
    Entries.Distinct r'.root := by
  simp only [entry, bind, StateT.bind, Option.bind_eq_some_iff] at h
  obtain ⟨⟨path, _⟩, -, _, -, _, -, ⟨v, _⟩, -, h⟩ := h
  cases hroot : descend false (fun _ t => addEntry path v t) r.current false r.root with
  | none =>
    simp only [hroot] at h
    cases h
  | some root =>
    simp only [hroot] at h
    cases h
    exact keeps_descend (fun _ => keeps_addEntry path v) false _ false _ _ hroot hr

/-- However many lines are read, no key gets a second entry. -/
theorem distinct_lines {fuel : Nat} (h : lines fuel r cs = some (r', rest))
    (hr : Entries.Distinct r.root) : Entries.Distinct r'.root := by
  induction fuel generalizing r cs with
  | zero => cases h
  | succ fuel ih =>
    simp only [lines] at h
    split at h
    · cases h
      exact hr
    · simp only [Option.bind_eq_bind, Option.bind_eq_some_iff] at h
      obtain ⟨⟨r₁, _⟩, hheader, _, -, h⟩ := h
      exact ih h (distinct_header hheader hr)
    · split at h
      · simp only [Option.bind_eq_bind, Option.bind_eq_some_iff] at h
        obtain ⟨_, -, h⟩ := h
        exact ih h hr
      · simp only [Option.bind_eq_bind, Option.bind_eq_some_iff] at h
        obtain ⟨⟨r₁, _⟩, hentry, _, -, h⟩ := h
        exact ih h (distinct_entry hentry hr)

/-! ## The finished table -/

theorem keys_entriesToTable (t : Entries) : (entriesToTable t).map Prod.fst = t.map Prod.fst := by
  induction t with
  | nil => rw [entriesToTable]; rfl
  | cons e t ih => rw [entriesToTable, List.map_cons, List.map_cons, ih]

theorem keys_settleEntries? {t t' : Table} (h : settleEntries? t = some t') :
    t'.map Prod.fst = t.map Prod.fst := by
  induction t generalizing t' with
  | nil =>
    rw [settleEntries?] at h
    cases h
    rfl
  | cons e t ih =>
    simp only [settleEntries?, Option.bind_eq_bind, Option.bind_eq_some_iff] at h
    obtain ⟨v, -, rest, hrest, h⟩ := h
    cases h
    rw [List.map_cons, List.map_cons, ih hrest]

namespace Table

/-- The keys stand in the order of their bytes, each of them once. -/
def Ordered (t : Table) : Prop := t.Pairwise fun e e' => Utf8.encode e.1 < Utf8.encode e'.1

variable {t : Table}

theorem ordered_sorted (h : (t.map Prod.fst).Nodup) : t.sorted.Ordered := by
  have hle : t.sorted.Pairwise fun e e' => (!decide (e'.1 < e.1)) = true := by
    refine List.pairwise_mergeSort (fun a b c hab hbc => ?_) (fun a b => ?_) t
    · simp only [Bool.not_eq_true', decide_eq_false_iff_not, String.not_lt] at hab hbc ⊢
      exact String.le_trans hab hbc
    · simp only [Bool.or_eq_true, Bool.not_eq_true', decide_eq_false_iff_not, String.not_lt]
      exact String.le_total _ _
  have hne : t.sorted.Pairwise fun e e' => e.1 ≠ e'.1 :=
    List.pairwise_map.1 (((List.mergeSort_perm t _).map Prod.fst).nodup_iff.2 h)
  refine (hle.and hne).imp fun {e e'} he => Utf8.encode_lt_iff.2 ?_
  simp only [Bool.not_eq_true', decide_eq_false_iff_not, String.not_lt] at he
  exact String.not_le.1 fun hge => he.2 (String.le_antisymm he.1 hge)

theorem Ordered.nodup (h : t.Ordered) : (t.map Prod.fst).Nodup :=
  List.pairwise_map.2 (h.imp fun {e e'} hlt (heq : e.1 = e'.1) => by
    rw [heq] at hlt
    exact List.lt_irrefl _ hlt)

theorem find?_eq_some_iff (h : t.Ordered) {key : String} {v : Value} :
    t.find? key = some v ↔ (key, v) ∈ t := by
  have hkey : ∀ e, List.find? (fun e => e.1 == key) t = some e → e.1 = key := fun e he => by
    simpa using List.find?_some he
  constructor
  · intro hfind
    obtain ⟨e, he, rfl⟩ := Option.map_eq_some_iff.1 hfind
    exact hkey e he ▸ List.mem_of_find?_eq_some he
  · intro hmem
    cases hfind : List.find? (fun e => e.1 == key) t with
    | none => exact absurd (beq_self_eq_true key) (List.find?_eq_none.1 hfind _ hmem)
    | some e =>
      have he := List.inj_on_of_nodup_map h.nodup (List.mem_of_find?_eq_some hfind) hmem
        (hkey e hfind)
      rw [find?, hfind, he, Option.map_some]

end Table

/-- The keys of a document stand in the order of their bytes, each of them once. -/
theorem ordered_of_parse {text : String} {t : Table} (h : parse text = some t) : t.Ordered := by
  simp only [parse, Option.bind_eq_bind, Option.bind_eq_some_iff] at h
  obtain ⟨⟨r, rest⟩, hlines, settled, hsettled, h⟩ := h
  cases h
  refine Table.ordered_sorted ?_
  rw [keys_settleEntries? hsettled, keys_entriesToTable]
  exact distinct_lines hlines List.nodup_nil

end BackupAcks.Toml
