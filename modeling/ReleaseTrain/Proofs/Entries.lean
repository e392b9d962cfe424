import ReleaseTrain.Value

/-!
# Keys and their values

What `Entries.put` and `Entries.putAll` do to the keys of entries, and the entries
as a function of their keys when no key comes twice.

* `map_fst_put`: a new key comes at the end, and a known one stays in its place.
* `mem_iff_get?`: entries without a repeated key are what `get?` says.
* `put_append_of_notMem`, `put_append_of_mem`: a key is looked for from the front, and the
  entries on the other side are left alone.
* `putAll_of_nodup`: new keys come at the end, and `put_append_cons`: a known one gets its
  value in its place.
* `get?_putAll_const`: putting one value at many keys.
* `lasting`: the last entry of each key; `perm_putAll`: putting values at many keys leaves these,
  and the entries of other keys.
* `Value.hasText`: the tables with a text under a key.  Cargo and registries both
  answer with a list of tables out of which the first one of this kind is taken.
-/

namespace ReleaseTrain.Entries

variable {κ α : Type} [BEq κ]

theorem putAll_cons (entries : Entries κ α) (key : κ) (value : α) (more : Entries κ α) :
    entries.putAll ((key, value) :: more) = (entries.put key value).putAll more := rfl

variable [LawfulBEq κ]

theorem map_fst_put (key : κ) (value : α) (entries : Entries κ α) :
    (entries.put key value).map (·.1) =
      if key ∈ entries.map (·.1) then entries.map (·.1) else entries.map (·.1) ++ [key] := by
  induction entries with
  | nil => simp [put]
  | cons entry rest ih =>
    obtain ⟨k, v⟩ := entry
    by_cases hk : k == key
    · simp [put, eq_of_beq hk]
    · have hne : key ≠ k := fun h => hk (beq_iff_eq.mpr h.symm)
      simp only [put, hk, Bool.false_eq_true, if_false, List.map_cons, ih, List.mem_cons, hne,
        false_or]
      split <;> rfl

theorem mem_map_fst_put {key k : κ} {value : α} {entries : Entries κ α} :
    k ∈ (entries.put key value).map (·.1) ↔ k = key ∨ k ∈ entries.map (·.1) := by
  rw [map_fst_put]
  split
  next h => exact ⟨.inr, fun hk => hk.elim (fun hk => hk ▸ h) id⟩
  next => rw [List.mem_append, List.mem_singleton, or_comm]

theorem nodup_put {key : κ} {value : α} {entries : Entries κ α}
    (h : (entries.map (·.1)).Nodup) : ((entries.put key value).map (·.1)).Nodup := by
  rw [map_fst_put]
  split
  next => exact h
  next hkey =>
    rw [List.nodup_append]
    refine ⟨h, by simp, fun k hk k' hk' => ?_⟩
    rw [List.mem_singleton.mp hk']
    exact fun heq => hkey (heq ▸ hk)

/-- Entries without a repeated key are what `get?` says. -/
theorem mem_iff_get? {entries : Entries κ α} (h : (entries.map (·.1)).Nodup) {key : κ}
    {value : α} : (key, value) ∈ entries ↔ entries.get? key = some value := by
  induction entries with
  | nil => simp [get?]
  | cons entry rest ih =>
    obtain ⟨k, v⟩ := entry
    rw [List.map_cons, List.nodup_cons] at h
    rw [List.mem_cons, get?]
    by_cases hk : k == key
    · obtain rfl := eq_of_beq hk
      have hnot : (k, value) ∉ rest := fun hmem => h.1 (List.mem_map.mpr ⟨_, hmem, rfl⟩)
      simp [hnot, eq_comm]
    · have hne : key ≠ k := fun heq => hk (beq_iff_eq.mpr heq.symm)
      simp [hk, hne, ih h.2]

theorem get?_eq_none_iff {entries : Entries κ α} {key : κ} :
    entries.get? key = none ↔ key ∉ entries.map (·.1) := by
  induction entries with
  | nil => simp [get?]
  | cons entry rest ih =>
    obtain ⟨k, v⟩ := entry
    rw [get?, List.map_cons, List.mem_cons, not_or]
    by_cases hk : k == key
    · obtain rfl := eq_of_beq hk
      simp
    · have hne : key ≠ k := fun heq => hk (beq_iff_eq.mpr heq.symm)
      simp only [hk, hne, ih, not_false_eq_true, true_and, Bool.false_eq_true, if_false]

theorem mem_map_fst_putAll {entries more : Entries κ α} {k : κ} :
    k ∈ (entries.putAll more).map (·.1) ↔ k ∈ entries.map (·.1) ∨ k ∈ more.map (·.1) := by
  induction more generalizing entries with
  | nil => simp [putAll]
  | cons entry rest ih =>
    rw [putAll_cons, ih, mem_map_fst_put, List.map_cons, List.mem_cons, or_assoc, or_left_comm]

theorem nodup_putAll {entries more : Entries κ α} (h : (entries.map (·.1)).Nodup) :
    ((entries.putAll more).map (·.1)).Nodup := by
  induction more generalizing entries with
  | nil => exact h
  | cons entry rest ih => exact ih (nodup_put h)

theorem get?_putAll_of_notMem {entries more : Entries κ α} {k : κ} (h : k ∉ more.map (·.1)) :
    (entries.putAll more).get? k = entries.get? k := by
  induction more generalizing entries with
  | nil => rfl
  | cons entry rest ih =>
    rw [List.map_cons, List.mem_cons, not_or] at h
    rw [putAll_cons, ih h.2, get?_put_of_ne (Ne.symm h.1)]

/-- Putting a value at a key leaves alone what stands in front, if the key is not there. -/
theorem put_append_of_notMem {key : κ} {value : α} {front entries : Entries κ α}
    (h : key ∉ front.map (·.1)) :
    (front ++ entries).put key value = front ++ entries.put key value := by
  induction front with
  | nil => rfl
  | cons entry front ih =>
    obtain ⟨k, v⟩ := entry
    rw [List.map_cons, List.mem_cons, not_or] at h
    have hk : ¬(k == key) = true := fun hk => h.1 (eq_of_beq hk).symm
    rw [List.cons_append, put, if_neg hk, ih h.2]
    rfl

/-- A key that is not there comes at the end. -/
theorem put_of_notMem {key : κ} {value : α} {entries : Entries κ α}
    (h : key ∉ entries.map (·.1)) : entries.put key value = entries ++ [(key, value)] := by
  have hput : (entries ++ []).put key value = entries ++ [(key, value)] :=
    put_append_of_notMem h
  rwa [List.append_nil] at hput

/-- A key that is there gets its value in its place. -/
theorem put_append_cons {key : κ} {value value' : α} {front rest : Entries κ α}
    (h : key ∉ front.map (·.1)) :
    (front ++ (key, value) :: rest).put key value' = front ++ (key, value') :: rest := by
  rw [put_append_of_notMem h, put, if_pos (beq_self_eq_true key)]

/-- Putting a value at a key leaves alone what stands behind, if the key stands before that. -/
theorem put_append_of_mem {key : κ} {value : α} {entries back : Entries κ α}
    (h : key ∈ entries.map (·.1)) :
    (entries ++ back).put key value = entries.put key value ++ back := by
  induction entries with
  | nil => cases h
  | cons entry rest ih =>
    obtain ⟨k, v⟩ := entry
    by_cases hk : (k == key) = true
    · rw [List.cons_append, put, if_pos hk, put, if_pos hk, List.cons_append]
    · have hne : key ≠ k := fun heq => hk (beq_iff_eq.mpr heq.symm)
      have hrest : key ∈ rest.map (·.1) := (List.mem_cons.mp h).resolve_left hne
      rw [List.cons_append, put, if_neg hk, ih hrest, put, if_neg hk, List.cons_append]

omit [LawfulBEq κ] in
theorem putAll_append (entries more more' : Entries κ α) :
    entries.putAll (more ++ more') = (entries.putAll more).putAll more' := List.foldl_append

/-- Putting values at many keys leaves alone what stands in front, if no such key is there. -/
theorem putAll_append_of_notMem {front entries more : Entries κ α}
    (h : ∀ key ∈ more.map (·.1), key ∉ front.map (·.1)) :
    (front ++ entries).putAll more = front ++ entries.putAll more := by
  induction more generalizing entries with
  | nil => rfl
  | cons entry rest ih =>
    obtain ⟨k, v⟩ := entry
    obtain ⟨hk, hrest⟩ := List.forall_mem_cons.mp h
    rw [putAll_cons, putAll_cons, put_append_of_notMem hk, ih hrest]

/-- Keys that are not there come at the end one after another. -/
theorem putAll_of_nodup {entries more : Entries κ α}
    (h : (entries.map (·.1) ++ more.map (·.1)).Nodup) : entries.putAll more = entries ++ more := by
  induction more generalizing entries with
  | nil => rw [List.append_nil]; rfl
  | cons entry rest ih =>
    obtain ⟨k, v⟩ := entry
    have hk : k ∉ entries.map (·.1) := by
      intro hmem
      exact (List.nodup_append.mp h).2.2 k hmem k (by simp) rfl
    rw [putAll_cons, put_of_notMem hk, ih (by simpa using h), List.append_assoc,
      List.singleton_append]

/-- Putting one value at many keys. -/
theorem get?_putAll_const {entries : Entries κ α} {keys : List κ} {key : κ} (value : α)
    (h : key ∈ keys) : (entries.putAll (keys.map fun k => (k, value))).get? key = some value := by
  induction keys generalizing entries with
  | nil => cases h
  | cons k rest ih =>
    rw [List.map_cons, putAll_cons]
    by_cases hrest : key ∈ rest
    · exact ih hrest
    · obtain rfl : key = k := (List.mem_cons.mp h).resolve_right hrest
      rw [get?_putAll_of_notMem (by simpa using hrest), get?_put_self]

/-! ## The last value of each key -/

/-- The entries whose keys do not come again behind them. -/
def lasting : Entries κ α → Entries κ α
  | [] => []
  | (k, v) :: rest =>
    if (rest.map (·.1)).contains k then lasting rest else (k, v) :: lasting rest

/-- Up to their order, putting a value at a key is to add an entry in place of the old one. -/
theorem perm_put (key : κ) (value : α) {entries : Entries κ α}
    (h : (entries.map (·.1)).Nodup) :
    (entries.put key value).Perm (entries.filter (fun entry => entry.1 != key) ++
      [(key, value)]) := by
  induction entries with
  | nil => exact .refl _
  | cons entry rest ih =>
    obtain ⟨k, v⟩ := entry
    rw [List.map_cons, List.nodup_cons] at h
    by_cases hk : (k == key) = true
    · obtain rfl := eq_of_beq hk
      have hrest : rest.filter (fun entry => entry.1 != k) = rest :=
        List.filter_eq_self.mpr fun entry hentry =>
          bne_iff_ne.mpr fun heq => h.1 (List.mem_map.mpr ⟨entry, hentry, heq⟩)
      rw [put, if_pos hk, List.filter_cons_of_neg (by simp), hrest]
      exact (List.perm_append_singleton _ _).symm
    · rw [put, if_neg hk, List.filter_cons_of_pos (by simpa using hk), List.cons_append]
      exact (ih h.2).cons _

/-- Up to their order, putting values at many keys leaves the entries of other keys and the last
value for each of these. -/
theorem perm_putAll {entries more : Entries κ α} (h : (entries.map (·.1)).Nodup) :
    (entries.putAll more).Perm
      (entries.filter (fun entry => !(more.map (·.1)).contains entry.1) ++ more.lasting) := by
  induction more generalizing entries with
  | nil =>
    have hall : entries.filter (fun entry => !(([] : Entries κ α).map (·.1)).contains entry.1) =
        entries := List.filter_eq_self.mpr fun _ _ => rfl
    rw [hall, lasting, List.append_nil]
    exact .refl _
  | cons entry rest ih =>
    obtain ⟨k, v⟩ := entry
    have hnodup : ((entries.put k v).map (·.1)).Nodup := nodup_put h
    have hput := (perm_put k v h).filter
      fun entry => !(rest.map (·.1)).contains entry.1
    have hrest := (ih hnodup).trans (hput.append_right _)
    rw [putAll_cons]
    refine hrest.trans ?_
    rw [List.filter_append, List.filter_filter, List.append_assoc]
    have hkeys : (fun entry : κ × α => (!(rest.map (·.1)).contains entry.1) && entry.1 != k) =
        fun entry => !(((k, v) :: rest).map (·.1)).contains entry.1 := by
      funext entry
      simp [bne, Bool.and_comm]
    rw [hkeys, lasting]
    -- the entry that was put for `k` is left unless a later one comes for `k`
    by_cases hk : (rest.map (·.1)).contains k = true
    · rw [if_pos hk, List.filter_cons_of_neg (by simpa using hk)]
      exact .refl _
    · rw [if_neg hk, List.filter_cons_of_pos (by simpa using hk)]
      exact .refl _

end ReleaseTrain.Entries

namespace ReleaseTrain.Value

/-- Whether a value is a table with a text under a key. -/
def hasText (key text : String) : Value → Bool
  | table entries =>
    match Entries.get? (.whole key) entries with
    | some (.text t) => t = .whole text
    | _ => false
  | _ => false

variable {key text : String}

theorem hasText_table {entries : Entries Text Value} :
    hasText key text (.table entries) = true ↔
      Entries.get? (.whole key) entries = some (.text (.whole text)) := by
  rw [hasText]
  split
  next t ht => simp [ht]
  next h => exact ⟨nofun, fun ht => (h _ ht).elim⟩

/-- Only a list has tables among its members. -/
theorem exists_list_of_find?_members {v v' : Value} {items : List Value}
    (hitems : v.members? = some items) (hfind : items.find? (hasText key text) = some v') :
    v = .list items := by
  have hmem := List.mem_of_find?_eq_some hfind
  have htable := List.find?_some hfind
  cases v with
  | list items' =>
    obtain rfl := Option.some.inj hitems
    rfl
  | table entries =>
    obtain rfl := Option.some.inj hitems
    obtain ⟨entry, -, rfl⟩ := List.mem_map.mp hmem
    cases htable
  | text t =>
    obtain rfl := Option.some.inj hitems
    obtain ⟨letter, -, rfl⟩ := List.mem_map.mp hmem
    cases htable
  | null => cases hitems
  | bool b => cases hitems
  | number n => cases hitems
  | day d => cases hitems
  | clock t => cases hitems
  | moment m => cases hitems

end ReleaseTrain.Value
