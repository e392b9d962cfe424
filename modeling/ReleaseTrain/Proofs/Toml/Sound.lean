import ReleaseTrain.Proofs.Steps
import ReleaseTrain.Toml.Tree
import Mathlib.Data.List.Nodup

/-!
# What tables that are read are like

A table that is being read is a list of parts, and not every such list can come about.  Whatever is
done to a table while a file is read keeps it sound.

* `Table.height_le_iff`, `Table.height_pos_iff`: the height of a table, by its entries.
* `Table.uncompared`, `Table.uncompared_of_settle`: settling keys changes ledgers and nothing else.
* `Node.Sound`, `Table.Sound`: a key comes several times only if a table is there, all the way down,
  and all values have a property that is given.
* `Table.sound_lay`, `Table.sound_joinedBy`, `Table.sound_addPart`: one lemma for each way to make
  one table out of others.

## Why ledgers do not count

A ledger is kept to compare the next part with those before it.  It is never put together, so
nothing has to be known about it.
-/

namespace ReleaseTrain.Toml

/-! ## Heights -/

namespace Table

theorem height_le_iff {table : Table} {n : Nat} :
    height table ≤ n ↔ ∀ entry ∈ table, entry.2.height ≤ n := by
  induction table with
  | nil => simp [height]
  | cons entry rest ih =>
    obtain ⟨key, node⟩ := entry
    rw [height, Nat.max_le, ih, List.forall_mem_cons]

theorem heights_le_iff {elements : List Table} {n : Nat} :
    heights elements ≤ n ↔ ∀ entries ∈ elements, height entries ≤ n := by
  induction elements with
  | nil => simp [heights]
  | cons entries rest ih => rw [heights, Nat.max_le, ih, List.forall_mem_cons]

theorem height_pos_iff {table : Table} :
    0 < height table ↔ ∃ entry ∈ table, 0 < entry.2.height := by
  have hzero : height table ≤ 0 ↔ ∀ entry ∈ table, entry.2.height ≤ 0 := height_le_iff
  constructor
  · intro hpos
    by_contra hnone
    have hle : height table ≤ 0 := by
      refine hzero.mpr fun entry hmem => Nat.le_of_not_lt fun hentry => ?_
      exact hnone ⟨entry, hmem, hentry⟩
    omega
  · rintro ⟨entry, hmem, hpos⟩
    exact Nat.lt_of_lt_of_le hpos (height_le_iff.mp (Nat.le_refl _) entry hmem)

end Table

theorem Node.height_fresh (node : Node) : node.fresh.height = node.height := by
  cases node <;> rfl

theorem Node.fresh_enter (ledger : Table) (node : Node) :
    (node.enter ledger).fresh = node.fresh := by
  cases node <;> rfl

/-! ## Ledgers -/

namespace Table

variable {key : Text} {table table' : Table} {depth : Nat}

/-- The entries of a table, as if they had not been compared with each other. -/
def uncompared (table : Table) : Table := table.map fun entry => (entry.1, entry.2.fresh)

theorem map_fst_uncompared (table : Table) :
    table.uncompared.map Prod.fst = table.map Prod.fst := by
  rw [uncompared, List.map_map]
  rfl

theorem height_uncompared (table : Table) : height table.uncompared = height table := by
  induction table with
  | nil => rfl
  | cons entry rest ih =>
    obtain ⟨key, node⟩ := entry
    have hcons : uncompared ((key, node) :: rest) = (key, node.fresh) :: uncompared rest := rfl
    rw [hcons, height, height, ih, Node.height_fresh]

theorem setParts_uncompared {nodes : List Node}
    (h : nodes.map Node.fresh = (table.parts key).map Node.fresh) :
    (setParts key nodes table).uncompared = table.uncompared := by
  induction table generalizing nodes with
  | nil => cases nodes <;> rfl
  | cons entry rest ih =>
    obtain ⟨other, held⟩ := entry
    cases nodes with
    | nil => rfl
    | cons node nodes =>
      simp only [uncompared] at ih
      by_cases hkey : (other == key) = true
      · have hparts : parts key ((other, held) :: rest) = held :: parts key rest := by
          simp [parts, hkey]
        rw [hparts, List.map_cons, List.map_cons, List.cons.injEq] at h
        rw [setParts, if_pos hkey, uncompared, uncompared, List.map_cons, List.map_cons, h.1,
          ih h.2]
      · have hparts : parts key ((other, held) :: rest) = parts key rest := by
          simp [parts, hkey]
        rw [hparts] at h
        rw [setParts, if_neg hkey, uncompared, uncompared, List.map_cons, List.map_cons, ih h]

/-- What takes up the parts one after another has taken up all of them in the end. -/
theorem map_fresh_of_foldlM {f : List Node × Table → Node → Except Fault (List Node × Table)}
    {parts : List Node} {start found : List Node × Table}
    (hf : ∀ taken part, Gives (fun taken' => taken'.1.map Node.fresh =
      part.fresh :: taken.1.map Node.fresh) (f taken part))
    (h : parts.foldlM f start = .ok found) :
    found.1.map Node.fresh = (parts.map Node.fresh).reverse ++ start.1.map Node.fresh := by
  induction parts generalizing start with
  | nil =>
    obtain rfl := Except.ok.inj h
    rfl
  | cons part rest ih =>
    rw [List.foldlM_cons] at h
    obtain ⟨next, hnext, hrest⟩ := exists_of_bind_eq_ok h
    rw [ih hrest, hf start part next hnext, List.map_cons, List.reverse_cons, List.append_assoc,
      List.singleton_append]

/-- Comparing the parts under a key only adds ledgers. -/
theorem uncompared_of_settleKey {add : Text → Node → Table → Except Fault Table}
    {settle : List Text → Table → Except Fault Table} :
    Gives (fun table' => table'.uncompared = table.uncompared)
      (settleKey add settle key table) := by
  unfold settleKey
  split
  next => exact .ok rfl
  next => exact .ok rfl
  next =>
    intro table' h
    obtain ⟨⟨compared, ledger⟩, hcompared, hset⟩ := exists_of_bind_eq_ok h
    obtain rfl := Except.ok.inj hset
    have hmap := map_fresh_of_foldlM (fun taken part => ?_) hcompared
    · refine setParts_uncompared ?_
      rw [List.map_reverse, hmap, List.map_nil, List.append_nil, List.reverse_reverse]
    · obtain ⟨taken, ledger⟩ := taken
      have hentered (ledger : Table) : ((part.enter ledger :: taken).map Node.fresh) =
          part.fresh :: taken.map Node.fresh := by
        rw [List.map_cons, Node.fresh_enter]
      dsimp only
      split
      next => exact Gives.anything.bind fun ledger _ => .ok (hentered ledger)
      next => exact Gives.anything.bind fun ledger _ => .ok (hentered ledger)

/-- Settling keys only adds ledgers. -/
theorem uncompared_of_settle {keys : List Text} :
    Gives (fun table' => table'.uncompared = table.uncompared) (settle depth keys table) := by
  cases depth with
  | zero => exact .error
  | succ depth =>
    rw [settle]
    refine .foldlM rfl fun key _ found hfound => ?_
    exact fun table' h => (uncompared_of_settleKey table' h).trans hfound

end Table

/-! ## Sound tables -/

/-- Whether a key comes several times only if there is a table. -/
def Table.Continued (table : Table) : Prop := (table.map Prod.fst).Nodup ∨ 0 < height table

/-- A node with a property of all its values, in which keys come several times only beside a
table. -/
inductive Node.Sound (P : Value → Prop) : Node → Prop
  | value {v : Value} (h : P v) : Node.Sound P (.value v)
  | table {origin : Origin} {entries : List (Text × Node)}
      {ledger : Option (List (Text × Node))} (continued : Table.Continued entries)
      (nodes : ∀ entry ∈ entries, Node.Sound P entry.2) :
      Node.Sound P (.table origin entries ledger)
  | tables {elements : List (List (Text × Node))}
      (continued : ∀ entries ∈ elements, Table.Continued entries)
      (nodes : ∀ entries ∈ elements, ∀ entry ∈ entries, Node.Sound P entry.2) :
      Node.Sound P (.tables elements)

/-- A table that consists of sound nodes and in which keys come several times only beside a
table. -/
structure Table.Sound (P : Value → Prop) (table : Table) : Prop where
  continued : table.Continued
  nodes : ∀ entry ∈ table, entry.2.Sound P

variable {P : Value → Prop}

theorem Node.sound_value_iff {v : Value} : (value v).Sound P ↔ P v :=
  ⟨fun h => by cases h with | value h => exact h, .value⟩

theorem Node.sound_table_iff {origin : Origin} {entries : Table} {ledger : Option Table} :
    (table origin entries ledger).Sound P ↔ Table.Sound P entries := by
  constructor
  · intro h
    cases h with
    | table continued nodes => exact ⟨continued, nodes⟩
  · exact fun h => .table h.continued h.nodes

theorem Node.sound_tables_iff {elements : List Table} :
    (tables elements).Sound P ↔ ∀ entries ∈ elements, Table.Sound P entries := by
  constructor
  · intro h entries hentries
    cases h with
    | tables continued nodes => exact ⟨continued entries hentries, nodes entries hentries⟩
  · exact fun h => .tables (fun entries hentries => (h entries hentries).continued)
      fun entries hentries => (h entries hentries).nodes

theorem Node.sound_fresh_iff {node : Node} : node.fresh.Sound P ↔ node.Sound P := by
  cases node with
  | table origin entries ledger => rw [fresh, sound_table_iff, sound_table_iff]
  | value v => rfl
  | tables elements => rfl

theorem Node.Sound.entries {node : Node} (h : node.Sound P) :
    ∀ entry ∈ node.entries, entry.2.Sound P := by
  cases h with
  | value h => exact List.forall_mem_nil _
  | table continued nodes => exact nodes
  | tables continued nodes => exact List.forall_mem_nil _

namespace Table

variable {key : Text} {node : Node} {table table' : Table} {depth : Nat}

theorem sound_nil : Sound P [] := ⟨.inl List.nodup_nil, List.forall_mem_nil _⟩

/-- Only what a table is made of counts, not what was compared with what. -/
theorem sound_uncompared_iff : table.uncompared.Sound P ↔ table.Sound P := by
  have hcontinued : table.uncompared.Continued ↔ table.Continued := by
    rw [Continued, Continued, map_fst_uncompared, height_uncompared]
  have hnodes : (∀ entry ∈ table.uncompared, entry.2.Sound P) ↔
      ∀ entry ∈ table, entry.2.Sound P := by
    rw [uncompared, List.forall_mem_map]
    exact forall₂_congr fun entry _ => Node.sound_fresh_iff
  exact ⟨fun h => ⟨hcontinued.mp h.continued, hnodes.mp h.nodes⟩,
    fun h => ⟨hcontinued.mpr h.continued, hnodes.mpr h.nodes⟩⟩

theorem sound_of_uncompared_eq (h : table.Sound P) (heq : table'.uncompared = table.uncompared) :
    table'.Sound P := by
  rw [← sound_uncompared_iff, heq, sound_uncompared_iff]
  exact h

theorem mem_parts : node ∈ table.parts key ↔ (key, node) ∈ table := by
  rw [parts, List.mem_map]
  constructor
  · rintro ⟨⟨other, held⟩, hmem, rfl⟩
    rw [List.mem_filter] at hmem
    obtain rfl := eq_of_beq hmem.2
    exact hmem.1
  · intro hmem
    exact ⟨(key, node), List.mem_filter.mpr ⟨hmem, beq_self_eq_true key⟩, rfl⟩

/-- The parts of a sound table are sound. -/
theorem Sound.of_mem_parts (h : table.Sound P) (hmem : node ∈ table.parts key) : node.Sound P :=
  h.nodes _ (mem_parts.mp hmem)

theorem notMem_keys_of_parts_eq_nil (h : table.parts key = []) : key ∉ table.map Prod.fst := by
  intro hmem
  obtain ⟨⟨other, held⟩, hheld, rfl⟩ := List.mem_map.mp hmem
  have hparts : held ∈ table.parts other := mem_parts.mpr hheld
  rw [h] at hparts
  cases hparts

/-- A table that holds a table is continued, whatever keys it has. -/
theorem continued_of_mem {entry : Text × Node} (hmem : entry ∈ table) (hpos : 0 < entry.2.height) :
    table.Continued := .inr (height_pos_iff.mpr ⟨entry, hmem, hpos⟩)

/-! ## Putting nodes into tables -/

theorem mem_put {entry : Text × Node} (h : entry ∈ Entries.put key node table) :
    entry.2 = node ∨ entry ∈ table := by
  induction table with
  | nil => exact .inl (congrArg Prod.snd (List.mem_singleton.mp h))
  | cons first rest ih =>
    obtain ⟨other, held⟩ := first
    rw [Entries.put] at h
    split at h
    all_goals rcases List.mem_cons.mp h with rfl | hrest
    · exact .inl rfl
    · exact .inr (List.mem_cons_of_mem _ hrest)
    · exact .inr (List.mem_cons_self ..)
    · exact (ih hrest).imp_right (List.mem_cons_of_mem _)

theorem exists_mem_put (key : Text) (node : Node) (table : Table) :
    ∃ other, (other, node) ∈ Entries.put key node table := by
  induction table with
  | nil => exact ⟨key, List.mem_cons_self ..⟩
  | cons first rest ih =>
    obtain ⟨other, held⟩ := first
    rw [Entries.put]
    split
    · exact ⟨other, List.mem_cons_self ..⟩
    · obtain ⟨found, hfound⟩ := ih
      exact ⟨found, List.mem_cons_of_mem _ hfound⟩

/-- A part that is a table may take the place of the last part. -/
theorem Sound.setLast (h : table.Sound P) (hnode : node.Sound P) (hpos : 0 < node.height) :
    (setLast key node table).Sound P := by
  rw [Table.setLast]
  obtain ⟨other, hput⟩ := exists_mem_put key node table.reverse
  refine ⟨continued_of_mem (List.mem_reverse.mpr hput) hpos, fun entry hentry => ?_⟩
  rcases mem_put (List.mem_reverse.mp hentry) with rfl | hmem
  · exact hnode
  · exact h.nodes entry (List.mem_reverse.mp hmem)

/-- A part that is a table may take the place of all parts. -/
theorem Sound.setOnly (h : table.Sound P) (hnode : node.Sound P) (hpos : 0 < node.height) :
    (setOnly key node table).Sound P := by
  rw [Table.setOnly]
  refine ⟨continued_of_mem (List.mem_append_right _ (List.mem_cons_self ..)) hpos,
    fun entry hentry => ?_⟩
  rcases List.mem_append.mp hentry with hfront | hback
  · exact h.nodes entry ((List.takeWhile_prefix _).subset hfront)
  · rcases List.mem_cons.mp hback with rfl | hrest
    · exact hnode
    · have hdrop := List.mem_of_mem_drop (List.mem_of_mem_filter hrest)
      exact h.nodes entry ((List.dropWhile_suffix _).subset hdrop)

/-- A part may stand apart under a key that is not there, and beside a table under any key. -/
theorem Sound.setApart (h : table.Sound P) (hnode : node.Sound P)
    (hkey : key ∉ table.map Prod.fst ∨ 0 < height table) : (setApart key node table).Sound P := by
  have hcontinued : (Table.setApart key node table).Continued := by
    have hpos (hheight : 0 < height table) : (Table.setApart key node table).Continued := by
      obtain ⟨entry, hmem, hentry⟩ := height_pos_iff.mp hheight
      exact continued_of_mem (List.mem_append_left _ hmem) hentry
    rcases hkey with hnew | hheight
    · rcases h.continued with hnodup | hheight
      · refine .inl ?_
        rw [Table.setApart, List.map_append]
        exact hnodup.append (List.nodup_singleton key) (by simpa using hnew)
      · exact hpos hheight
    · exact hpos hheight
  refine ⟨hcontinued, fun entry hentry => ?_⟩
  rcases List.mem_append.mp hentry with hmem | hlast
  · exact h.nodes entry hmem
  · rw [List.mem_singleton.mp hlast]
    exact Node.sound_fresh_iff.mpr hnode

/-- A key whose last part is a table stands in a table that holds a table. -/
theorem height_pos_of_getLast? {origin : Origin} {entries : Table} {ledger : Option Table}
    (h : (table.parts key).getLast? = some (.table origin entries ledger)) : 0 < height table :=
  height_pos_iff.mpr ⟨_, mem_parts.mp (List.mem_of_getLast? h), Nat.succ_pos _⟩

theorem sound_tables_append {elements more : List Table} (h : (Node.tables elements).Sound P)
    (hmore : (Node.tables more).Sound P) : (Node.tables (elements ++ more)).Sound P := by
  rw [Node.sound_tables_iff] at h hmore ⊢
  intro entries hentries
  exact (List.mem_append.mp hentries).elim (h entries) (hmore entries)

theorem sound_tables_singleton {entries : Table} (h : entries.Sound P) :
    (Node.tables [entries]).Sound P :=
  Node.sound_tables_iff.mpr (List.forall_mem_singleton.mpr h)

/-- The last element, which is empty if there is none, is sound. -/
theorem sound_lastElement {elements : List Table} (h : (Node.tables elements).Sound P) :
    Table.Sound P (elements.getLast?.getD []) := by
  cases hend : elements.getLast? with
  | none => exact sound_nil
  | some entries => exact Node.sound_tables_iff.mp h entries (List.mem_of_getLast? hend)

/-- Another table may take the place of the last element. -/
theorem sound_tables_dropLast {elements : List Table} {last : Table}
    (h : (Node.tables elements).Sound P) (hlast : last.Sound P) :
    (Node.tables (elements.dropLast ++ [last])).Sound P := by
  have hfront : (Node.tables elements.dropLast).Sound P :=
    Node.sound_tables_iff.mpr fun entries hentries =>
      Node.sound_tables_iff.mp h entries ((List.dropLast_prefix _).subset hentries)
  exact sound_tables_append hfront (sound_tables_singleton hlast)

/-! ## Putting tables together -/

theorem sound_lay {entry : Text × Node} (h : table.Sound P) (hentry : entry.2.Sound P) :
    Gives (Sound P) (lay table entry) := by
  obtain ⟨key, node⟩ := entry
  dsimp only [lay]
  split
  next elements more hparts =>
    have hmem : Node.tables elements ∈ table.parts key := hparts ▸ List.mem_singleton_self _
    exact .ok (h.setLast (sound_tables_append (h.of_mem_parts hmem) hentry) (Nat.succ_pos _))
  next =>
    split
    next hlast =>
      have hnew := notMem_keys_of_parts_eq_nil (List.getLast?_eq_none_iff.mp hlast)
      exact .ok (h.setApart hentry (.inl hnew))
    next hlast => exact .ok (h.setApart hentry (.inr (height_pos_of_getLast? hlast)))
    next => exact .error

/-- The table that parts make together is sound if the entries of all parts are. -/
theorem sound_joinedBy {parts : List Node} (h : ∀ part ∈ parts, ∀ entry ∈ part.entries,
    entry.2.Sound P) : Gives (Sound P) (joinedBy (settle depth) parts) := by
  have hlaid : Gives (Sound P) ((parts.flatMap Node.entries).foldlM lay []) := by
    refine .foldlM sound_nil fun entry hentry table htable => ?_
    obtain ⟨part, hpart, hmem⟩ := List.mem_flatMap.mp hentry
    exact sound_lay htable (h part hpart entry hmem)
  exact hlaid.bind fun table htable table' hsettled =>
    sound_of_uncompared_eq htable (uncompared_of_settle table' hsettled)

/-- What stands under a key is sound. -/
theorem sound_whole {parts : List Node} (h : ∀ part ∈ parts, part.Sound P) :
    Gives (Node.Sound P) (whole parts) := by
  unfold whole
  split
  next node => exact .ok (h node (List.mem_singleton_self node))
  next =>
    refine (sound_joinedBy fun part hpart => (h part hpart).entries).map fun table htable => ?_
    exact Node.sound_table_iff.mpr htable

theorem sound_field? (h : table.Sound P) :
    Gives (fun found => ∀ node, found = some node → node.Sound P) (field? key table) := by
  unfold field?
  split
  next => exact .ok nofun
  next =>
    refine (sound_whole fun part hpart => h.of_mem_parts hpart).map fun node hnode => ?_
    exact fun other hother => Option.some.inj hother ▸ hnode

/-! ## Adding parts -/

/-- Parts that are added one after another, where each leaves the table sound. -/
theorem sound_foldlM (add : Text → Node → Table → Except Fault Table) {parts : Table}
    (hadd : ∀ {key node table}, Sound P table → node.Sound P → Gives (Sound P) (add key node table))
    (h : table.Sound P) (hparts : ∀ entry ∈ parts, entry.2.Sound P) :
    Gives (Sound P) (parts.foldlM (fun table (key, node) => add key node table) table) :=
  .foldlM h fun entry hentry _ hfound => hadd hfound (hparts entry hentry)

/-- Adds a part and looks at what then stands under its key. -/
def added (add : Text → Node → Table → Except Fault Table) (look : Text → Table → Except Fault Unit)
    (key : Text) (node : Node) (table : Table) : Except Fault Table := do
  let table ← add key node table
  look key table
  .ok table

/-- Looking at a table that was added to leaves it sound. -/
theorem sound_reached {add : Text → Node → Table → Except Fault Table}
    {look : Text → Table → Except Fault Unit}
    (hadd : ∀ {key node table}, Sound P table → node.Sound P → Gives (Sound P) (add key node table))
    (h : table.Sound P) (hnode : node.Sound P) : Gives (Sound P) (added add look key node table) :=
  (hadd h hnode).bind fun _ hfound => Gives.anything.bind fun _ _ => .ok hfound

/-- A part that stands apart beside a table leaves the table sound, whether it is compared with the
others or not. -/
theorem sound_apart {isChecked : Bool} (h : table.Sound P) (hnode : node.Sound P)
    (hheight : 0 < height table) :
    Gives (Sound P) (if isChecked then
        settleKey (addPart depth false) (settle depth) key (setApart key node table)
      else .ok (setApart key node table)) := by
  have hapart : (setApart key node table).Sound P := h.setApart hnode (.inr hheight)
  split
  next =>
    intro table' hkey
    exact sound_of_uncompared_eq hapart (uncompared_of_settleKey table' hkey)
  next => exact .ok hapart

/-- Adding a part to a table keeps it sound, whether parts are compared or not. -/
theorem sound_addPart {isChecked : Bool} (h : table.Sound P) (hnode : node.Sound P) :
    Gives (Sound P) (addPart depth isChecked key node table) := by
  induction depth generalizing isChecked key node table with
  | zero => exact .error
  | succ depth ih =>
    have hlast {part : Node} (hpart : (table.parts key).getLast? = some part) : part.Sound P :=
      h.of_mem_parts (List.mem_of_getLast? hpart)
    -- one case for each kind of the last part and of the new one
    unfold addPart
    split
    next hnone =>
      have hnew := notMem_keys_of_parts_eq_nil (List.getLast?_eq_none_iff.mp hnone)
      exact .ok (h.setApart hnode (.inl hnew))
    next elements more hpart =>
      exact .ok (h.setLast (sound_tables_append (hlast hpart) hnode) (Nat.succ_pos _))
    next elements more ledger hpart =>
      have hmore := sound_tables_singleton (Node.sound_table_iff.mp hnode)
      exact .ok (h.setLast (sound_tables_append (hlast hpart) hmore) (Nat.succ_pos _))
    next held ledger more ledger' hpart =>
      have hheld := sound_tables_singleton (Node.sound_table_iff.mp (hlast hpart))
      have hmore := sound_tables_singleton (Node.sound_table_iff.mp hnode)
      exact .ok (h.setOnly (sound_tables_append hheld hmore) (Nat.succ_pos _))
    next elements later more ledger _ hpart =>
      have hmore := Node.sound_table_iff.mp hnode
      split
      next => exact .error
      next =>
        have hend := sound_lastElement (hlast hpart)
        have hadded := sound_foldlM (addPart depth isChecked) ih hend hmore.nodes
        refine hadded.bind fun last hlastElement => ?_
        exact .ok (h.setLast (sound_tables_dropLast (hlast hpart) hlastElement) (Nat.succ_pos _))
    next origin held ledger later more ledger' _ hpart =>
      have hheld := Node.sound_table_iff.mp (hlast hpart)
      have hmore := Node.sound_table_iff.mp hnode
      split
      next =>
        split
        next => exact .error
        next =>
          refine (sound_foldlM (added (addPart depth true) (reach (settle depth)))
            (sound_reached ih) hheld hmore.nodes).bind fun found hfound => ?_
          exact .ok (h.setLast (Node.sound_table_iff.mpr hfound) (Nat.succ_pos _))
      next =>
        split
        next => exact sound_apart h hnode (height_pos_of_getLast? hpart)
        next => exact .error
    next => exact .error

/-- What parts make at the top of a file, and as an inline table. -/
theorem sound_collect {parts : Table} (h : ∀ entry ∈ parts, entry.2.Sound P) :
    Gives (Sound P) (collect parts) :=
  sound_foldlM (addPart heightLimit true) sound_addPart sound_nil h

/-- What parts make below a header. -/
theorem sound_ofSection {parts : Table} (h : ∀ entry ∈ parts, entry.2.Sound P) :
    Gives (Sound P) (ofSection parts) := by
  have hadded := sound_foldlM (added (addPart heightLimit false) (reach (settle heightLimit)))
    (sound_reached sound_addPart) sound_nil h
  exact hadded.bind fun table htable table' hsettled =>
    sound_of_uncompared_eq htable (uncompared_of_settle table' hsettled)

end Table

end ReleaseTrain.Toml
