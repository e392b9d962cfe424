import ReleaseTrain.Proofs.Toml.Distinct

/-!
# Looking a key up and finishing the table

A table can be finished as a whole, and a key can be looked up in it without a look at the others.
Where the whole can be finished, the two agree.

* `Table.height_whole`: what stands under a key is no higher than the table.
* `Table.plainWithin_eq`: a depth beyond the height of a sound table does not matter.
* `Table.field?_of_get?_eq_none`, `Table.exists_field?_of_get?`: a key that is looked up leads to
  what the finished table has there.

## Why the table has to be sound

Parts that are put together make a table, and this table is one higher than what is in it.  If a key
could come twice for values that are no tables, the table that they make would be higher than the
one around it.
-/

namespace ReleaseTrain.Toml

variable {P : Value → Prop} {depth n : Nat} {key : Text} {table : Table} {node : Node}

namespace Table

/-! ## Heights of tables that are put together -/

theorem height_setLast (h : height table ≤ n) (hnode : node.height ≤ n) :
    height (setLast key node table) ≤ n := by
  rw [height_le_iff] at h ⊢
  intro entry hentry
  rcases mem_put (List.mem_reverse.mp hentry) with heq | hmem
  · rw [heq]
    exact hnode
  · exact h entry (List.mem_reverse.mp hmem)

theorem height_setApart (h : height table ≤ n) (hnode : node.height ≤ n) :
    height (setApart key node table) ≤ n := by
  rw [height_le_iff] at h ⊢
  intro entry hentry
  rcases List.mem_append.mp hentry with hmem | hlast
  · exact h entry hmem
  · rw [List.mem_singleton.mp hlast, Node.height_fresh]
    exact hnode

theorem height_tables_append {elements more : List Table} (h : (Node.tables elements).height ≤ n)
    (hmore : (Node.tables more).height ≤ n) : (Node.tables (elements ++ more)).height ≤ n := by
  have happend : heights (elements ++ more) ≤ n - 1 := by
    have helements : heights elements ≤ n - 1 := Nat.le_sub_one_of_lt h
    have hmore' : heights more ≤ n - 1 := Nat.le_sub_one_of_lt hmore
    rw [heights_le_iff] at helements hmore' ⊢
    intro entries hentries
    exact (List.mem_append.mp hentries).elim (helements entries) (hmore' entries)
  have hpos : 0 < n := Nat.lt_of_lt_of_le (Nat.succ_pos _) h
  rw [Node.height]
  omega

theorem height_lay {entry : Text × Node} (h : height table ≤ n) (hentry : entry.2.height ≤ n) :
    Gives (fun table' => height table' ≤ n) (lay table entry) := by
  obtain ⟨key, node⟩ := entry
  dsimp only [lay]
  split
  next elements more hparts =>
    have hmem : Node.tables elements ∈ table.parts key := hparts ▸ List.mem_singleton_self _
    have helements := height_le_iff.mp h _ (mem_parts.mp hmem)
    exact .ok (height_setLast h (height_tables_append helements hentry))
  next =>
    split
    next => exact .ok (height_setApart h hentry)
    next => exact .ok (height_setApart h hentry)
    next => exact .error

theorem height_joinedBy {parts : List Node}
    (h : ∀ part ∈ parts, ∀ entry ∈ part.entries, entry.2.height ≤ n) :
    Gives (fun table => height table ≤ n) (joinedBy (settle depth) parts) := by
  have hlaid : Gives (fun table => height table ≤ n)
      ((parts.flatMap Node.entries).foldlM lay []) := by
    refine .foldlM (Nat.zero_le n) fun entry hentry table htable => ?_
    obtain ⟨part, hpart, hmem⟩ := List.mem_flatMap.mp hentry
    exact height_lay htable (h part hpart entry hmem)
  refine hlaid.bind fun table htable table' hsettled => ?_
  rwa [← height_uncompared, uncompared_of_settle table' hsettled, height_uncompared]

theorem length_parts (key : Text) (table : Table) :
    (table.parts key).length = (table.map Prod.fst).count key := by
  rw [parts, List.length_map, ← List.countP_eq_length_filter, List.count, List.countP_map]
  rfl

/-- A sound table in which a key has several parts holds a table. -/
theorem Sound.height_pos (h : table.Sound P) (hseveral : 1 < (table.parts key).length) :
    0 < height table := by
  rcases h.continued with hnodup | hpos
  · have hcount := List.nodup_iff_count_le_one.mp hnodup key
    rw [length_parts] at hseveral
    omega
  · exact hpos

theorem height_entries_of_le (h : node.height ≤ n + 1) :
    ∀ entry ∈ node.entries, entry.2.height ≤ n := by
  cases node with
  | table origin entries ledger => exact height_le_iff.mp (Nat.le_of_succ_le_succ h)
  | value v => exact List.forall_mem_nil _
  | tables elements => exact List.forall_mem_nil _

theorem parts_ne_nil_iff : table.parts key ≠ [] ↔ key ∈ table.keys := by
  rw [keys, List.mem_eraseDups]
  constructor
  · intro hne
    obtain ⟨part, hpart⟩ := List.exists_mem_of_ne_nil _ hne
    exact List.mem_map.mpr ⟨_, mem_parts.mp hpart, rfl⟩
  · intro hmem hnil
    exact notMem_keys_of_parts_eq_nil hnil hmem

/-- What stands under a key is no higher than the table. -/
theorem height_whole (h : table.Sound P) (hkey : key ∈ table.keys) :
    Gives (fun node => node.height ≤ height table) (whole (table.parts key)) := by
  have hparts : ∀ part ∈ table.parts key, part.height ≤ height table :=
    fun part hpart => height_le_iff.mp (Nat.le_refl _) _ (mem_parts.mp hpart)
  unfold whole
  split
  next node heq => exact .ok (hparts node (heq ▸ List.mem_singleton_self node))
  next hone =>
    have hseveral : 1 < (table.parts key).length := by
      have hne := parts_ne_nil_iff.mpr hkey
      cases hcases : table.parts key with
      | nil => exact absurd hcases hne
      | cons part rest =>
        cases rest with
        | nil => exact absurd hcases (hone part)
        | cons next rest => simp
    obtain ⟨n, hn⟩ := Nat.exists_eq_succ_of_ne_zero (Nat.ne_of_gt (h.height_pos hseveral))
    rw [hn]
    refine (height_joinedBy fun part hpart => ?_).map fun joined hjoined =>
      Nat.succ_le_succ hjoined
    exact height_entries_of_le (Nat.le_trans (hparts part hpart) (Nat.le_of_eq hn))

end Table

/-! ## Depths -/

/-- A node is finished in one way by two ways that agree on the tables in it. -/
theorem Node.plainBy_congr {finish finish' : Table → Except Fault (Entries Text Value)}
    (hnode : node.Sound P)
    (h : ∀ entries : Table, entries.Sound P → Table.height entries < node.height →
      finish entries = finish' entries) : node.plainBy finish = node.plainBy finish' := by
  cases node with
  | value v => rfl
  | table origin entries ledger =>
    rw [plainBy, plainBy, h entries (sound_table_iff.mp hnode) (Nat.lt_succ_self _)]
  | tables elements =>
    have helements := sound_tables_iff.mp hnode
    have hheight := Table.heights_le_iff.mp (Nat.le_refl (Table.heights elements))
    rw [plainBy, plainBy, mapM_congr fun entries hentries =>
      h entries (helements entries hentries) (Nat.lt_succ_of_le (hheight entries hentries))]

namespace Table

/-- A depth beyond the height of a table does not matter. -/
theorem plainWithin_eq {depth' : Nat} (h : table.Sound P) (hdepth : height table < depth)
    (hdepth' : height table < depth') : plainWithin depth table = plainWithin depth' table := by
  induction depth generalizing depth' table with
  | zero => exact absurd hdepth (Nat.not_lt_zero _)
  | succ depth ih =>
    obtain ⟨depth', rfl⟩ := Nat.exists_eq_succ_of_ne_zero (Nat.ne_zero_of_lt hdepth')
    rw [plainWithin_succ, plainWithin_succ]
    refine mapM_congr fun key hkey => ?_
    cases hwhole : whole (table.parts key) with
    | error fault => rfl
    | ok node =>
      have hnode : node.Sound P := sound_whole (fun part hpart => h.of_mem_parts hpart) node hwhole
      have hheight : node.height ≤ height table := height_whole h hkey node hwhole
      have hplain : node.plainBy (plainWithin depth) = node.plainBy (plainWithin depth') := by
        refine node.plainBy_congr hnode fun entries hentries hlt => ih hentries ?_ ?_ <;> omega
      show (node.plainBy (plainWithin depth)).map _ = (node.plainBy (plainWithin depth')).map _
      rw [hplain]

/-! ## Looking keys up -/

variable {document : Table} {found : Entries Text Value}

/-- A finished table has the keys of the table, and at each of them what stands there when it is
finished. -/
theorem entries_of_plain (h : document.Sound P) (hplain : document.plain = .ok found) :
    found.map Prod.fst = document.keys ∧ ∀ entry ∈ found, ∃ node,
      whole (document.parts entry.1) = .ok node ∧ node.plain = .ok entry.2 := by
  rw [plain, plainWithin_succ, mapM_eq_ok_iff] at hplain
  have hmem : ∀ key ∈ document.keys, key ∈ document.keys := fun _ hkey => hkey
  have hentries : List.Forall₂ (fun entry key =>
      (∃ node, whole (document.parts entry.1) = .ok node ∧ node.plain = .ok entry.2) ∧
        entry.1 = key) found document.keys := by
    refine (((List.forall₂_and_left _ _).mpr ⟨hmem, hplain⟩).imp fun key entry hstep => ?_).flip
    obtain ⟨hkey, hstep⟩ := hstep
    obtain ⟨node, hwhole, hstep⟩ := exists_of_bind_eq_ok hstep
    have hnode : node.Sound P := sound_whole (fun part hpart => h.of_mem_parts hpart) node hwhole
    have hheight : node.height ≤ height document := height_whole h hkey node hwhole
    have hagree : node.plain = node.plainBy (plainWithin (height document)) := by
      rw [Node.plain_eq]
      refine node.plainBy_congr hnode fun entries hentries hlt => ?_
      exact plainWithin_eq hentries (Nat.lt_succ_self _) (Nat.lt_of_lt_of_le hlt hheight)
    cases hfinished : node.plainBy (plainWithin (height document)) with
    | error fault =>
      rw [hfinished] at hstep
      cases hstep
    | ok v =>
      rw [hfinished] at hstep
      obtain rfl := Except.ok.inj hstep
      exact ⟨⟨node, hwhole, hagree.trans hfinished⟩, rfl⟩
  obtain ⟨hnodes, hkeys⟩ := (List.forall₂_and_left found document.keys).mp hentries
  refine ⟨?_, hnodes⟩
  rw [← List.forall₂_eq_eq_eq, List.forall₂_map_left_iff]
  exact hkeys

theorem nodup_of_plain (h : document.Sound P) (hplain : document.plain = .ok found) :
    (found.map Prod.fst).Nodup := by
  rw [(entries_of_plain h hplain).1]
  exact nodup_eraseDups _

/-- A key that is not in the finished table leads nowhere. -/
theorem field?_of_get?_eq_none (h : document.Sound P) (hplain : document.plain = .ok found)
    (hnone : found.get? key = none) : document.field? key = .ok none := by
  have hparts : document.parts key = [] := by
    by_contra hne
    have hkey := parts_ne_nil_iff.mp hne
    rw [← (entries_of_plain h hplain).1] at hkey
    exact Entries.get?_eq_none_iff.mp hnone hkey
  rw [field?, hparts]

/-- A key of the finished table leads to a node that makes the value there. -/
theorem exists_field?_of_get? {v : Value} (h : document.Sound P)
    (hplain : document.plain = .ok found) (hget : found.get? key = some v) :
    ∃ node, document.field? key = .ok (some node) ∧ node.Sound P ∧ node.plain = .ok v := by
  obtain ⟨hkeys, hnodes⟩ := entries_of_plain h hplain
  have hmem : (key, v) ∈ found := (Entries.mem_iff_get? (nodup_of_plain h hplain)).mpr hget
  obtain ⟨node, hwhole, hfinished⟩ := hnodes _ hmem
  have hne : document.parts key ≠ [] := by
    rw [parts_ne_nil_iff, ← hkeys]
    exact List.mem_map.mpr ⟨_, hmem, rfl⟩
  have hnode : node.Sound P := sound_whole (fun part hpart => h.of_mem_parts hpart) node hwhole
  refine ⟨node, ?_, hnode, hfinished⟩
  unfold field?
  split
  next hnil => exact absurd hnil hne
  next =>
    rw [hwhole]
    rfl

end Table

end ReleaseTrain.Toml
