import ReleaseTrain.Proofs.Entries
import ReleaseTrain.Proofs.Toml.Sound
import ReleaseTrain.Toml.Document

/-!
# No key comes twice in what is read

* `Value.Distinct`: a value in which no table has a key twice.
* `Node.plainBy`, `Table.plainWithin_succ`: a table is finished key by key.
* `Table.distinct_plain`, `Node.distinct_plain`: what is finished has no key twice.
* `sound_parse`: a file that is read is a sound table of such values.

## Where values come from

The values of a file stand behind equals signs, and nothing that happens to tables makes new ones.
An inline table is a value that was finished when it was read.
-/

namespace ReleaseTrain

/-- A value in which no table has a key twice. -/
inductive Value.Distinct : Value → Prop
  | single {v : Value} (h : v.height = 0) : Distinct v
  | list {items : List Value} (h : ∀ v ∈ items, Distinct v) : Distinct (.list items)
  | table {entries : List (Text × Value)} (keys : (entries.map Prod.fst).Nodup)
      (h : ∀ entry ∈ entries, Distinct entry.2) : Distinct (.table entries)

theorem Value.Distinct.nodup {entries : Entries Text Value} (h : (Value.table entries).Distinct) :
    (entries.map Prod.fst).Nodup := by
  cases h with
  | single h => cases h
  | table keys h => exact keys

theorem Value.Distinct.of_get? {entries : Entries Text Value} {key : Text} {v : Value}
    (h : (Value.table entries).Distinct) (hget : entries.get? key = some v) : v.Distinct := by
  have hmem := (Entries.mem_iff_get? h.nodup).mpr hget
  cases h with
  | single h => cases h
  | table keys h => exact h _ hmem

namespace Toml

variable {depth : Nat} {table : Table} {node : Node}

/-! ## Finished values -/

/-- A finished node, given how its tables are finished. -/
def Node.plainBy (finish : Table → Except Fault (Entries Text Value)) : Node → Except Fault Value
  | .value v => .ok v
  | .table _ entries _ => (finish entries).map .table
  | .tables elements => (elements.mapM finish).map fun tables => .list (tables.map .table)

theorem Node.plain_eq (node : Node) : node.plain = node.plainBy Table.plain := by
  cases node <;> rfl

/-- A table is finished key by key. -/
theorem Table.plainWithin_succ (depth : Nat) (table : Table) :
    plainWithin (depth + 1) table = table.keys.mapM fun key =>
      whole (table.parts key) >>= fun node =>
        (node.plainBy (plainWithin depth)).map fun v => (key, v) := by
  have hmap {v : Except Fault Value} (key : Text) :
      (v >>= fun v => .ok (key, v)) = v.map fun v => (key, v) := by
    cases v <;> rfl
  rw [plainWithin]
  refine mapM_congr fun key _ => bind_congr fun node => ?_
  cases node with
  | value v => rfl
  | table origin entries ledger => exact hmap key
  | tables elements => exact hmap key

theorem nodup_eraseDups {α : Type} [BEq α] [LawfulBEq α] : ∀ l : List α, l.eraseDups.Nodup
  | [] => List.nodup_nil
  | a :: rest => by
    rw [List.eraseDups_cons, List.nodup_cons, List.mem_eraseDups]
    exact ⟨fun h => by simp at h, nodup_eraseDups _⟩
termination_by l => l.length
decreasing_by
  have hle := List.length_filter_le (fun b => !b == a) rest
  rw [List.length_cons]
  omega

theorem Node.distinct_plainBy {finish : Table → Except Fault (Entries Text Value)}
    (hfinish : ∀ entries : Table, entries.Sound Value.Distinct →
      Gives (fun found => (Value.table found).Distinct) (finish entries))
    (h : node.Sound Value.Distinct) : Gives Value.Distinct (node.plainBy finish) := by
  cases node with
  | value v => exact .ok (sound_value_iff.mp h)
  | table origin entries ledger =>
    exact (hfinish entries (sound_table_iff.mp h)).map fun _ hfound => hfound
  | tables elements =>
    have helements := sound_tables_iff.mp h
    refine (Gives.mapM fun entries hentries => hfinish entries (helements entries hentries)).map
      fun tables htables => .list (List.forall_mem_map.mpr htables)

/-- The finished entries of a sound table are a table without a key that comes twice. -/
theorem Table.distinct_plainWithin (h : table.Sound Value.Distinct) :
    Gives (fun found => (Value.table found).Distinct) (plainWithin depth table) := by
  induction depth generalizing table with
  | zero => exact .error
  | succ depth ih =>
    rw [plainWithin_succ]
    have hkey (key : Text) : Gives (fun entry => entry.2.Distinct ∧ entry.1 = key)
        (whole (table.parts key) >>= fun node =>
          (node.plainBy (plainWithin depth)).map fun v => (key, v)) := by
      have hwhole : Gives (Node.Sound Value.Distinct) (whole (table.parts key)) :=
        sound_whole fun part hpart => h.of_mem_parts hpart
      exact hwhole.bind fun node hnode =>
        (node.distinct_plainBy (fun entries hentries => ih hentries) hnode).map
          fun v hv => ⟨hv, rfl⟩
    intro found hfound
    have hentries : List.Forall₂ (fun entry key => entry.2.Distinct ∧ entry.1 = key) found
        table.keys :=
      ((mapM_eq_ok_iff.mp hfound).imp fun key entry => hkey key entry).flip
    obtain ⟨hdistinct, hkeys⟩ := (List.forall₂_and_left found table.keys).mp hentries
    have heq : found.map Prod.fst = table.keys := by
      rw [← List.forall₂_eq_eq_eq, List.forall₂_map_left_iff]
      exact hkeys
    refine .table ?_ hdistinct
    rw [heq]
    exact nodup_eraseDups _

/-- A finished node has no key twice. -/
theorem Node.distinct_plain (h : node.Sound Value.Distinct) : Gives Value.Distinct node.plain := by
  rw [plain_eq]
  exact node.distinct_plainBy (fun entries hentries => Table.distinct_plainWithin hentries) h

/-! ## Reading values -/

/-- Reading that comes to a value without a key that comes twice. -/
abbrev ReadsDistinct (item : List Char → Reading Value) : Prop :=
  ∀ cs, Gives (fun found => found.1.Distinct) (item cs)

/-- A node at the end of a path of keys is a table, with every key once. -/
theorem sound_along {P : Value → Prop} {origin : Origin} (h : node.Sound P) (path : List Text) :
    (along origin node path).Sound P := by
  induction path with
  | nil => exact Table.sound_nil
  | cons key path ih =>
    cases path with
    | nil => exact ⟨.inl (List.nodup_singleton key), List.forall_mem_singleton.mpr h⟩
    | cons next path =>
      exact ⟨.inl (List.nodup_singleton key),
        List.forall_mem_singleton.mpr (Node.sound_table_iff.mpr ih)⟩

theorem sound_addedByPairs {P : Value → Prop} {pairs : List Pair} (h : ∀ found ∈ pairs, P found.2) :
    ∀ entry ∈ addedByPairs pairs, entry.2.Sound P := by
  intro entry hentry
  obtain ⟨⟨path, v⟩, hpair, hmem⟩ := List.mem_flatMap.mp hentry
  exact (sound_along (.value (h _ hpair)) path).nodes entry hmem

theorem distinct_inlineTable {pairs : List Pair} (h : ∀ found ∈ pairs, found.2.Distinct) :
    Gives Value.Distinct (inlineTable pairs) :=
  (Table.sound_collect (sound_addedByPairs h)).bind fun _ htable =>
    (Table.distinct_plainWithin htable).bind fun _ hentries => .ok hentries

theorem height_of_scalar? {token : List Char} {v : Value} (h : Literal.scalar? token = some v) :
    v.height = 0 := by
  rw [Literal.scalar?] at h
  cases hmoment : Literal.moment? token with
  | some moment =>
    rw [hmoment] at h
    obtain rfl := Option.some.inj h
    rfl
  | none =>
    cases hclock : Literal.wholeClock? token with
    | some clock =>
      rw [hmoment, hclock] at h
      obtain rfl := Option.some.inj h
      rfl
    | none =>
      rw [hmoment, hclock] at h
      obtain ⟨number, -, rfl⟩ := Option.map_eq_some_iff.mp h
      rfl

theorem readsDistinct_scalar : ReadsDistinct scalar := by
  intro cs
  unfold scalar
  dsimp only
  split
  next =>
    split
    next => exact .error
    next v hv => exact .ok (.single (height_of_scalar? hv))
  next day hday =>
    split
    next => exact .ok (.single rfl)
    next =>
      split
      next => exact .error
      next moment hmoment => exact .ok (.single rfl)

theorem readsDistinct_truth (word : String) (b : Bool) : ReadsDistinct (truth word b) := by
  intro cs
  unfold truth
  split
  next => exact .ok (.single rfl)
  next => exact .error

theorem readsDistinct_simple : ReadsDistinct simple := by
  intro cs
  have htext (cs : List Char) : Gives (fun found => found.1.Distinct)
      ((Literal.text cs).map fun read => (Value.text read.1, read.2)) :=
    Gives.anything.map fun _ _ => .single rfl
  unfold simple
  split
  next => exact .error
  next => exact htext _
  next => exact htext _
  next => exact readsDistinct_truth "true" true _
  next => exact readsDistinct_truth "false" false _
  next =>
    dsimp only
    split
    next => exact readsDistinct_scalar _
    next => exact .error

variable {item : List Char → Reading Value}

theorem distinct_reverse {read : List Value} (h : ∀ v ∈ read, v.Distinct) :
    (Value.list read.reverse).Distinct :=
  .list fun v hv => h v (List.mem_reverse.mp hv)

theorem readsDistinct_elements {read : List Value} (hitem : ReadsDistinct item)
    (hread : ∀ v ∈ read, v.Distinct) (fuel : Nat) : ReadsDistinct (elements item read fuel) := by
  intro cs
  induction fuel generalizing read cs with
  | zero => exact .error
  | succ fuel ih =>
    unfold elements
    split
    next => exact .error
    next => exact .ok (distinct_reverse hread)
    next cs _ hcs =>
      split
      next => exact .error
      next v rest hv =>
        have hmore : ∀ w ∈ v :: read, w.Distinct :=
          List.forall_mem_cons.mpr ⟨hitem cs (v, rest) hv, hread⟩
        split
        next => exact .error
        next => exact ih hmore _
        next => exact .ok (distinct_reverse hmore)
        next => exact .error

theorem distinct_pair (hitem : ReadsDistinct item) (cs : List Char) :
    Gives (fun found => found.1.2.Distinct) (pair item cs) := by
  unfold pair
  split
  next => exact .error
  next path rest hkey =>
    split
    next rest hrest => exact (hitem (skipBlank rest)).map fun found hfound => hfound
    next => exact .error

theorem readsDistinct_pairs {read : List Pair} (hitem : ReadsDistinct item)
    (hread : ∀ found ∈ read, found.2.Distinct) (fuel : Nat) :
    ReadsDistinct (pairs item read fuel) := by
  have hclosed {read : List Pair} (hread : ∀ found ∈ read, found.2.Distinct) (rest : List Char) :
      Gives (fun found => found.1.Distinct)
        ((inlineTable read.reverse).map fun v => (v, rest)) :=
    (distinct_inlineTable fun found hfound => hread found (List.mem_reverse.mp hfound)).map
      fun _ hv => hv
  intro cs
  induction fuel generalizing read cs with
  | zero => exact .error
  | succ fuel ih =>
    unfold pairs
    split
    next => exact .error
    next => exact hclosed hread _
    next cs _ hcs =>
      split
      next => exact .error
      next found rest hfound =>
        have hmore : ∀ other ∈ found :: read, other.2.Distinct :=
          List.forall_mem_cons.mpr ⟨distinct_pair hitem cs (found, rest) hfound, hread⟩
        split
        next => exact .error
        next => exact ih hmore _
        next => exact hclosed hmore _
        next => exact .error

theorem readsDistinct_value : ReadsDistinct (value depth) := by
  intro cs
  induction depth generalizing cs with
  | zero =>
    unfold value
    split
    next => exact .error
    next => exact .error
    next => contradiction
    next => contradiction
    next => exact readsDistinct_simple _
  | succ depth ih =>
    unfold value
    split
    next => contradiction
    next => contradiction
    next depth' rest hdepth =>
      obtain rfl := Nat.succ.inj hdepth
      exact readsDistinct_elements ih (List.forall_mem_nil _) _ _
    next depth' rest hdepth =>
      obtain rfl := Nat.succ.inj hdepth
      exact readsDistinct_pairs ih (List.forall_mem_nil _) _ _
    next => exact readsDistinct_simple _

/-! ## Reading files -/

theorem distinct_line (cs : List Char) :
    Gives (fun found => ∀ pair, found.1 = .pair pair → pair.2.Distinct) (line cs) := by
  unfold line
  split
  next rest =>
    split
    next => exact .ok nofun
    next => exact .error
    next => exact .error
  next rest =>
    split
    next => exact .ok nofun
    next => exact .error
    next => exact .error
  next =>
    refine (distinct_pair readsDistinct_value cs).map fun found hfound pair heq => ?_
    obtain rfl := Line.pair.inj heq
    exact hfound

/-- The values in the lines of a file have no key twice. -/
theorem distinct_lines (fuel : Nat) (cs : List Char) :
    Gives (fun found => ∀ pair, .pair pair ∈ found → pair.2.Distinct) (lines fuel cs) := by
  induction fuel generalizing cs with
  | zero => exact .error
  | succ fuel ih =>
    unfold lines
    split
    next => exact .error
    next => exact .ok nofun
    next cs _ hcs =>
      split
      next => exact .error
      next first rest hfirst =>
        split
        next => exact .error
        next rest hrest =>
          refine (ih rest).map fun found hfound pair hpair => ?_
          rcases List.mem_cons.mp hpair with heq | hmem
          · exact distinct_line cs (first, _) hfirst pair heq.symm
          · exact hfound pair hmem

namespace Section

/-- The pairs of all sections are pairs of the lines. -/
theorem mem_of_mem_ofLines {found : List Line} {pair : Pair}
    (h : pair ∈ (ofLines found).1 ∨ ∃ s ∈ (ofLines found).2, pair ∈ s.pairs) :
    .pair pair ∈ found := by
  induction found with
  | nil => simp [ofLines] at h
  | cons first rest ih =>
    cases first with
    | pair other =>
      rcases h with hpair | hsection
      · rcases List.mem_cons.mp hpair with rfl | hrest
        · exact List.mem_cons_self ..
        · exact List.mem_cons_of_mem _ (ih (.inl hrest))
      · exact List.mem_cons_of_mem _ (ih (.inr hsection))
    | header isElement path =>
      rcases h with hpair | ⟨s, hs, hpair⟩
      · cases hpair
      · rcases List.mem_cons.mp hs with rfl | hrest
        · exact List.mem_cons_of_mem _ (ih (.inl hpair))
        · exact List.mem_cons_of_mem _ (ih (.inr ⟨s, hrest, hpair⟩))

variable {P : Value → Prop}

theorem sound_adds {s : Section} {array : Option Text} (h : node.Sound P) :
    ∀ entry ∈ s.adds depth array node, entry.2.Sound P := by
  unfold adds
  split
  next key next path hpath =>
    exact List.forall_mem_singleton.mpr (Node.sound_table_iff.mpr (sound_along h _))
  next => exact (sound_along h _).nodes

/-- What sections add to a table is sound if their values have the property. -/
theorem sound_additions {array before : Option Text} {sections : List Section}
    (h : ∀ s ∈ sections, ∀ pair ∈ s.pairs, P pair.2) :
    Gives (fun table => ∀ entry ∈ table, entry.2.Sound P)
      (additions depth array before sections) := by
  induction depth, array, before, sections using additions.induct with
  | case1 depth array before =>
    rw [additions]
    exact .ok (List.forall_mem_nil _)
  | case2 depth array before first rest name inside ihbelow ihafter =>
    obtain ⟨hfirst, hrest⟩ := List.forall_mem_cons.mp h
    rw [additions]
    have hbelow := ihbelow fun s hs => hrest s ((List.takeWhile_prefix _).subset hs)
    have hafter := ihafter fun s hs => hrest s ((List.dropWhile_suffix _).subset hs)
    refine hbelow.bind fun below hsound => ?_
    have hparts : ∀ entry ∈ addedByPairs first.pairs ++ below, entry.2.Sound P := by
      intro entry hentry
      exact (List.mem_append.mp hentry).elim (sound_addedByPairs hfirst entry) (hsound entry)
    refine (Table.sound_ofSection hparts).bind fun table htable => ?_
    have hnode : Node.Sound P
        (if first.isElement then .tables [table] else .table .header table none) := by
      split
      next => exact Node.sound_tables_iff.mpr (List.forall_mem_singleton.mpr htable)
      next => exact Node.sound_table_iff.mpr htable
    refine hafter.bind fun after hsound' => .ok fun entry hentry => ?_
    exact (List.mem_append.mp hentry).elim (sound_adds hnode entry) (hsound' entry)

end Section

/-- A file that is read is a sound table of values in which no key comes twice. -/
theorem sound_parse (text : String) : Gives (Table.Sound Value.Distinct) (parse text) := by
  refine (distinct_lines _ _).bind fun found hfound => ?_
  have hpairs : ∀ pair ∈ (Section.ofLines found).1, pair.2.Distinct :=
    fun pair hpair => hfound pair (Section.mem_of_mem_ofLines (.inl hpair))
  have hsections : ∀ s ∈ (Section.ofLines found).2, ∀ pair ∈ s.pairs, pair.2.Distinct :=
    fun s hs pair hpair => hfound pair (Section.mem_of_mem_ofLines (.inr ⟨s, hs, hpair⟩))
  refine (Section.sound_additions hsections).bind fun below hbelow table htable => ?_
  have hparts : ∀ entry ∈ addedByPairs (Section.ofLines found).1 ++ below,
      entry.2.Sound Value.Distinct := by
    intro entry hentry
    exact (List.mem_append.mp hentry).elim (sound_addedByPairs hpairs entry) (hbelow entry)
  exact (Table.sound_collect hparts).mapError table htable

end Toml

end ReleaseTrain
