import ReleaseTrain.Files.Tree
import ReleaseTrain.Proofs.Entries
import Mathlib.Data.List.Nodup
import Mathlib.Data.List.Perm.Subperm

/-!
# Files that are not on the way

Where a path leads depends on the directories and links that it goes through, and on what it leads
to.  Files elsewhere may come, go and change.

* `FileTree.SameBut`: trees that differ at most in files at some places.
* `FileTree.find_of_sameBut`: a path that leads to a place with no such file leads there in both.
* `FileTree.resolve_of_sameBut`: a path without links is the same in both.

## Two trees, two limits

`resolve` follows links inside each other up to a limit that is taken from the number of entries,
which is another one in another tree.  The limit is never reached: a link that is being followed is
not followed again, and each of them is an entry of its own (`destination_eq_of_lt`).
-/

namespace ReleaseTrain

namespace FileTree

/-- Whether there is a file at most. -/
def IsFileAtMost : Option Entry → Prop
  | none => True
  | some (.file _) => True
  | some .directory => False
  | some (.link _) => False

/-- Two trees that are the same but for the places that have changed, where both have a file at
most. -/
structure SameBut (changed : Place → Prop) (tree tree' : FileTree) : Prop where
  elsewhere : ∀ place, ¬changed place → tree.entry? place = tree'.entry? place
  before : ∀ place, changed place → IsFileAtMost (tree.entry? place)
  after : ∀ place, changed place → IsFileAtMost (tree'.entry? place)

variable {changed : Place → Prop} {tree tree' : FileTree} {here place directory : Place}
  {entry : Entry} {target : Target} {names rest : List String} {links : Nat}

theorem SameBut.symm (h : SameBut changed tree tree') : SameBut changed tree' tree :=
  ⟨fun place hplace => (h.elsewhere place hplace).symm, h.after, h.before⟩

/-! ## Going along names -/

/-- Whether going along names did not come to an end at a place that has changed. -/
def Halt.Outside (changed : Place → Prop) : Halt → Prop
  | .arrived place _ => ¬changed place
  | .absent _ => False
  | .atLink _ _ _ => True

/-- Nothing leads through a file. -/
theorem advance_of_file {name : String} (hfile : IsFileAtMost (tree.entry? here)) :
    tree.advance here (name :: rest) = .absent .notDirectory := by
  rw [advance]
  cases hentry : tree.entry? here with
  | none => rfl
  | some entry =>
    rw [hentry] at hfile
    cases entry with
    | file content => rfl
    | directory => cases hfile
    | link target => cases hfile

/-- Going on from a place that has changed comes to an end there or nowhere. -/
theorem not_outside_advance (h : SameBut changed tree tree') (hchanged : changed here) :
    ¬(tree.advance here names).Outside changed := by
  cases names with
  | nil =>
    rw [advance]
    cases tree.entry? here with
    | none => exact id
    | some entry => exact fun hplace => hplace hchanged
  | cons name rest =>
    rw [advance_of_file (h.before here hchanged)]
    exact id

/-- Names that lead to a link, or to a place that has not changed, lead there in both trees. -/
theorem advance_of_sameBut (h : SameBut changed tree tree')
    (houtside : (tree.advance here names).Outside changed) :
    tree'.advance here names = tree.advance here names := by
  induction names generalizing here with
  | nil =>
    have hunchanged : ¬changed here := fun hchanged => not_outside_advance h hchanged houtside
    rw [advance, advance, h.elsewhere here hunchanged]
  | cons name rest ih =>
    have hunchanged : ¬changed here := fun hchanged => not_outside_advance h hchanged houtside
    rw [advance, ← h.elsewhere here hunchanged]
    rw [advance] at houtside ⊢
    split at houtside
    next hdirectory =>
      by_cases hdot : name = "."
      · simp only [if_pos hdot] at houtside ⊢
        exact ih houtside
      by_cases hdots : name = ".."
      · simp only [if_neg hdot, if_pos hdots] at houtside ⊢
        exact ih houtside
      by_cases hlong : nameLimit < name.utf8ByteSize
      · simp only [if_neg hdot, if_neg hdots, if_pos hlong]
      simp only [if_neg hdot, if_neg hdots, if_neg hlong] at houtside ⊢
      by_cases hnext : changed (here ++ [name])
      · -- a file that has changed is where the names end, or they lead nowhere
        have hfile := h.before _ hnext
        have hon : ∀ target, tree.entry? (here ++ [name]) ≠ some (.link target) := by
          intro target hlink
          rw [hlink] at hfile
          cases hfile
        split at houtside
        next => cases houtside
        next target hlink => exact absurd hlink (hon target)
        next => exact absurd houtside (not_outside_advance h hnext)
      · rw [← h.elsewhere _ hnext]
        split at houtside
        next => rfl
        next => rfl
        next => exact ih houtside
    next => rfl

/-! ## Finding -/

theorem advance_ne_absent_tooManyLinks (tree : FileTree) (here : Place) (names : List String) :
    tree.advance here names ≠ .absent .tooManyLinks := by
  induction names generalizing here with
  | nil =>
    rw [advance]
    split <;> nofun
  | cons name rest ih =>
    rw [advance]
    split
    next =>
      repeat' split
      all_goals first | exact ih _ | nofun
    next => nofun

theorem follow_of_arrived (hhalt : tree.advance here names = .arrived place entry) :
    tree.follow links here names = .ok (place, entry) := by
  unfold follow
  rw [hhalt]

theorem follow_of_absent {why : Absence} (hhalt : tree.advance here names = .absent why) :
    tree.follow links here names = .error why := by
  unfold follow
  rw [hhalt]

theorem follow_zero_of_atLink (hhalt : tree.advance here names = .atLink directory target rest) :
    tree.follow 0 here names = .error .tooManyLinks := by
  unfold follow
  rw [hhalt]

theorem follow_succ_of_atLink (hhalt : tree.advance here names = .atLink directory target rest) :
    tree.follow (links + 1) here names =
      tree.follow links (start directory target.isAbsolute) (target.names ++ rest) := by
  rw [follow, hhalt]

/-- A link on the way is there in both trees. -/
theorem advance_of_atLink (h : SameBut changed tree tree')
    (hhalt : tree.advance here names = .atLink directory target rest) :
    tree'.advance here names = .atLink directory target rest := by
  have houtside : (tree.advance here names).Outside changed := by
    rw [hhalt]
    trivial
  exact (advance_of_sameBut h houtside).trans hhalt

/-- Whether a search has come to a place that has not changed, or met too many links. -/
def Settled (changed : Place → Prop) : Except Absence (Place × Entry) → Prop
  | .ok (place, _) => ¬changed place
  | .error why => why = .tooManyLinks

/-- A way through links that is settled is the same in both trees. -/
theorem follow_of_sameBut (h : SameBut changed tree tree')
    (hsettled : Settled changed (tree.follow links here names)) :
    tree'.follow links here names = tree.follow links here names := by
  induction links using Nat.strongRecOn generalizing here names with
  | _ links ih =>
    cases hhalt : tree.advance here names with
    | arrived place entry =>
      rw [follow_of_arrived hhalt] at hsettled ⊢
      have houtside : (tree.advance here names).Outside changed := by
        rw [hhalt]
        exact hsettled
      exact follow_of_arrived ((advance_of_sameBut h houtside).trans hhalt)
    | absent why =>
      rw [follow_of_absent hhalt] at hsettled
      obtain rfl : why = .tooManyLinks := hsettled
      exact absurd hhalt (advance_ne_absent_tooManyLinks tree here names)
    | atLink directory target rest =>
      have hhalt' := advance_of_atLink h hhalt
      cases links with
      | zero => rw [follow_zero_of_atLink hhalt, follow_zero_of_atLink hhalt']
      | succ links =>
        rw [follow_succ_of_atLink hhalt] at hsettled
        rw [follow_succ_of_atLink hhalt, follow_succ_of_atLink hhalt']
        exact ih links (Nat.lt_succ_self links) hsettled

/-- A search that is settled is the same in both trees. -/
theorem find_of_sameBut {p : Path} (h : SameBut changed tree tree')
    (hsettled : Settled changed (tree.find here p)) : tree'.find here p = tree.find here p := by
  unfold find at hsettled ⊢
  split
  next => rfl
  next hnull =>
    rw [if_neg hnull] at hsettled
    split
    next => rfl
    next hlong =>
      rw [if_neg hlong] at hsettled
      exact follow_of_sameBut h hsettled

theorem find_tooManyLinks_iff {p : Path} (h : SameBut changed tree tree') :
    tree'.find here p = .error .tooManyLinks ↔ tree.find here p = .error .tooManyLinks := by
  constructor
  · intro hfind
    have hsettled : Settled changed (tree'.find here p) := by
      rw [hfind]
      rfl
    exact (find_of_sameBut h.symm hsettled).trans hfind
  · intro hfind
    have hsettled : Settled changed (tree.find here p) := by
      rw [hfind]
      rfl
    exact (find_of_sameBut h hsettled).trans hfind

/-! ## Resolving -/

variable {p reached : Path} {jump jump' : Path → Target → Except Path Path}

/-- The same links are there in both trees. -/
theorem linkAt?_of_sameBut (h : SameBut changed tree tree') (here : Place) (p : Path) :
    tree'.linkAt? here p = tree.linkAt? here p := by
  unfold linkAt?
  by_cases hchanged : changed (placeOf here p)
  · have hlinkless (tree : FileTree) (hfile : IsFileAtMost (tree.entry? (placeOf here p))) :
        ∀ target, tree.entry? (placeOf here p) ≠ some (.link target) := by
      intro target hlink
      rw [hlink] at hfile
      cases hfile
    split
    next target hlink => exact absurd hlink (hlinkless tree' (h.after _ hchanged) target)
    next =>
      split
      next target hlink => exact absurd hlink (hlinkless tree (h.before _ hchanged) target)
      next => rfl
  · rw [h.elsewhere _ hchanged]

theorem straighten_of_sameBut (h : SameBut changed tree tree') (here : Place) (reached : Path)
    (names : List String) :
    tree'.straighten here jump reached names = tree.straighten here jump reached names := by
  induction names generalizing reached with
  | nil => rfl
  | cons name rest ih =>
    simp only [straighten, ih, linkAt?_of_sameBut h]

theorem destination_of_sameBut (h : SameBut changed tree tree') (here : Place) (depth : Nat)
    (followed : List Path) :
    tree'.destination here depth followed = tree.destination here depth followed := by
  induction depth generalizing followed with
  | zero => rfl
  | succ depth ih =>
    funext link target
    rw [destination, destination, ih, straighten_of_sameBut h]

/-- Whether two ways to follow links agree on those that can be reached along absolute paths, and
lead to absolute paths. -/
def Alike (tree : FileTree) (here : Place) (jump jump' : Path → Target → Except Path Path) : Prop :=
  ∀ link target, link.root = .single → tree.linkAt? here link = some target →
    jump link target = jump' link target ∧
      ∀ there, jump link target = .ok there → there.root = .single

theorem root_above (p : Path) : (above p).root = p.root := by
  unfold above
  split <;> rfl

theorem straighten_of_alike (h : Alike tree here jump jump') (hroot : reached.root = .single)
    (names : List String) :
    tree.straighten here jump reached names = tree.straighten here jump' reached names ∧
      ∀ there, tree.straighten here jump reached names = .ok there → there.root = .single := by
  induction names generalizing reached with
  | nil => exact ⟨rfl, fun there hthere => Except.ok.inj hthere ▸ hroot⟩
  | cons name rest ih =>
    rw [straighten, straighten]
    by_cases hskip : name = "" ∨ name = "."
    · rw [if_pos hskip, if_pos hskip]
      exact ih hroot
    by_cases hup : name = ".."
    · rw [if_neg hskip, if_neg hskip, if_pos hup, if_pos hup]
      exact ih ((root_above reached).trans hroot)
    rw [if_neg hskip, if_neg hskip, if_neg hup, if_neg hup]
    dsimp only
    cases hlink : tree.linkAt? here ⟨reached.root, reached.parts ++ [name]⟩ with
    | none => exact ih hroot
    | some target =>
      obtain ⟨hsame, habsolute⟩ := h ⟨reached.root, reached.parts ++ [name]⟩ target hroot hlink
      dsimp only
      rw [← hsame]
      cases hjump : jump ⟨reached.root, reached.parts ++ [name]⟩ target with
      | ok there => exact ih (habsolute there hjump)
      | error stuck => exact ⟨rfl, nofun⟩

/-- A link on an absolute path is an entry of its own. -/
theorem parts_mem_of_linkAt? {link : Path} (hroot : link.root = .single)
    (hlink : tree.linkAt? here link = some target) :
    link.parts ∈ tree.entries.map Prod.fst := by
  have habsolute : link.isAbsolute = true := by
    rw [Path.isAbsolute, hroot]
    rfl
  have hplace : placeOf here link = link.parts := if_pos habsolute
  rw [linkAt?, hplace] at hlink
  split at hlink
  next target' hentry =>
    unfold entry? at hentry
    split at hentry
    next => cases hentry
    next =>
      by_contra hnone
      rw [Entries.get?_eq_none_iff.mpr hnone] at hentry
      cases hentry
  next => cases hlink

/-- As many links are followed inside each other as there are entries, at most. -/
theorem length_followed_le {followed : List Path} (hnodup : followed.Nodup)
    (hlinks : ∀ link ∈ followed, link.root = .single ∧ link.parts ∈ tree.entries.map Prod.fst) :
    followed.length ≤ tree.entries.length := by
  have hplaces : (followed.map Path.parts).Nodup := by
    refine hnodup.map_on fun link hlink other hother heq => ?_
    obtain ⟨root, parts⟩ := link
    obtain ⟨root', parts'⟩ := other
    obtain rfl : root = .single := (hlinks _ hlink).1
    obtain rfl : root' = .single := (hlinks _ hother).1
    exact congrArg (Path.mk .single) heq
  have hsubset : followed.map Path.parts ⊆ tree.entries.map Prod.fst := by
    intro place hplace
    obtain ⟨link, hlink, rfl⟩ := List.mem_map.mp hplace
    exact (hlinks link hlink).2
  have hlength := (hplaces.subperm hsubset).length_le
  rwa [List.length_map, List.length_map] at hlength

/-- A limit beyond the number of entries is never reached. -/
theorem destination_alike {depth depth' : Nat} {followed : List Path} (hnodup : followed.Nodup)
    (hlinks : ∀ link ∈ followed, link.root = .single ∧ link.parts ∈ tree.entries.map Prod.fst)
    (hdepth : tree.entries.length < depth + followed.length)
    (hdepth' : tree.entries.length < depth' + followed.length) :
    Alike tree here (tree.destination here depth followed)
      (tree.destination here depth' followed) := by
  have hfollowed := length_followed_le hnodup hlinks
  induction depth generalizing depth' followed with
  | zero => omega
  | succ depth ih =>
    obtain ⟨depth', rfl⟩ : ∃ n, depth' = n + 1 := ⟨depth' - 1, by omega⟩
    intro link target hroot hlink
    rw [destination, destination]
    by_cases hagain : followed.contains link = true
    · rw [if_pos hagain, if_pos hagain]
      exact ⟨rfl, nofun⟩
    rw [if_neg hagain, if_neg hagain]
    have hnodup' : (link :: followed).Nodup :=
      List.nodup_cons.mpr ⟨by simpa using hagain, hnodup⟩
    have hlinks' : ∀ other ∈ link :: followed,
        other.root = .single ∧ other.parts ∈ tree.entries.map Prod.fst :=
      List.forall_mem_cons.mpr ⟨⟨hroot, parts_mem_of_linkAt? hroot hlink⟩, hlinks⟩
    refine straighten_of_alike (ih hnodup' hlinks' ?_ ?_ (length_followed_le hnodup' hlinks')) ?_ _
    · rw [List.length_cons]
      omega
    · rw [List.length_cons]
      omega
    · split
      next => rfl
      next => exact hroot

/-- Where names lead from the top does not depend on the limit, as long as it is not reached. -/
theorem straighten_destination_eq {depth depth' : Nat} (hdepth : tree.entries.length < depth)
    (hdepth' : tree.entries.length < depth') (here : Place) (names : List String) :
    tree.straighten here (tree.destination here depth []) (Path.absolute []) names =
      tree.straighten here (tree.destination here depth' []) (Path.absolute []) names := by
  have halike : Alike tree here (tree.destination here depth [])
      (tree.destination here depth' []) :=
    destination_alike List.nodup_nil (List.forall_mem_nil _) hdepth hdepth'
  have hroot : (Path.absolute []).root = .single := rfl
  exact (straighten_of_alike halike hroot names).1

theorem length_lt_depth (here : Place) (tree : FileTree) :
    tree.entries.length < (here.length + 2) * tree.entries.length + 1 :=
  Nat.lt_succ_of_le (Nat.le_mul_of_pos_left _ (Nat.succ_pos _))

/-- An absolute path without links is the same in both trees. -/
theorem resolve_of_sameBut (h : SameBut changed tree tree') (habsolute : p.isAbsolute = true) :
    tree'.resolve here p = tree.resolve here p := by
  have hstraight : tree'.straighten here
      (tree'.destination here ((here.length + 2) * tree'.entries.length + 1) [])
        (Path.absolute []) p.parts =
      tree.straighten here
        (tree.destination here ((here.length + 2) * tree.entries.length + 1) [])
        (Path.absolute []) p.parts := by
    -- a limit that is not reached in either tree
    have hdepth := length_lt_depth here tree
    have hdepth' := length_lt_depth here tree'
    obtain ⟨depth, hcommon, hcommon'⟩ :
        ∃ depth, tree.entries.length < depth ∧ tree'.entries.length < depth :=
      ⟨tree.entries.length + tree'.entries.length + 1, by omega, by omega⟩
    rw [straighten_destination_eq hdepth hcommon, straighten_destination_eq hdepth' hcommon',
      destination_of_sameBut h, straighten_of_sameBut h]
  unfold resolve
  rw [if_pos habsolute]
  dsimp only
  rw [hstraight]
  split
  next => rfl
  next =>
    split
    next => rfl
    next stuck hstuck =>
      by_cases hloop : tree.find [] (anchored here stuck) = .error .tooManyLinks
      · rw [hloop, (find_tooManyLinks_iff h).mpr hloop]
      · have hloop' : tree'.find [] (anchored here stuck) ≠ .error .tooManyLinks :=
          fun hfind => hloop ((find_tooManyLinks_iff h).mp hfind)
        split
        next hfind => exact absurd hfind hloop'
        next => rfl

end FileTree

end ReleaseTrain
