import ReleaseTrain.Proofs.Entries
import ReleaseTrain.Proofs.Plan
import ReleaseTrain.Settings.Basic

/-!
# Settings put over the standard ones

A table of settings is put over the standard settings entry by entry, and the name of their source
over all of them.

* `Settings.keyed`: a table of settings under the keys of settings.
* `Settings.get?_putAll_keyed`: a setting is that of the table, and else the one below.
* `Settings.Textual`: whether all settings are stored under texts, as those of a table are.
* `Settings.ofData_table`: what a table of settings comes to, an empty one too.
* `Settings.get?_of_ne`: the name of the source takes the place of one key only.
* `Settings.ofSettings_eq_of_entries_eq`: no plan depends on where its settings come from.

## Texts as keys

Keys that are numbers or moments may find each other without being the same.  A key that is a text
finds itself and nothing else, and only such keys are looked up.
-/

namespace ReleaseTrain

/-- A key that is a text is found by no other. -/
theorem Key.beq_text_iff {key : Key} {t : Text} : (key == .text t) = true ↔ key = .text t := by
  have hnone : (Key.text t).amount? = none := rfl
  show key.same (.text t) = true ↔ _
  unfold Key.same
  rw [hnone]
  cases key with
  | bool b => exact iff_of_false nofun nofun
  | number n => exact iff_of_false nofun nofun
  | _ => exact decide_eq_true_iff

namespace Settings

variable {entries : Entries Key Value} {table : Entries Text Value} {t t' : Text} {v : Value}

/-- A table of settings under the keys of settings. -/
def keyed (table : Entries Text Value) : Entries Key Value :=
  table.map fun (key, v) => (.text key, v)

theorem get?_cons_text {key : Key} :
    Entries.get? (.text t) ((key, v) :: entries) =
      if key = .text t then some v else entries.get? (.text t) := by
  simp only [Entries.get?, Key.beq_text_iff]

theorem get?_put_text :
    (entries.put (.text t) v).get? (.text t') =
      if t = t' then some v else entries.get? (.text t') := by
  induction entries with
  | nil => simp only [Entries.put, get?_cons_text, Key.text.injEq]
  | cons entry rest ih =>
    obtain ⟨key, held⟩ := entry
    rw [Entries.put]
    by_cases hkey : (key == .text t) = true
    · obtain rfl := Key.beq_text_iff.mp hkey
      simp only [hkey, if_true, get?_cons_text, Key.text.injEq]
      split <;> rfl
    · have hne : key ≠ .text t := fun heq => hkey (Key.beq_text_iff.mpr heq)
      rw [if_neg hkey, get?_cons_text, get?_cons_text, ih]
      by_cases hother : key = .text t'
      · have hne' : t ≠ t' := fun heq => hne (heq ▸ hother)
        rw [if_pos hother, if_neg hne', if_pos hother]
      · rw [if_neg hother, if_neg hother]

/-- A setting is that of the table that was put over the others, and else the one below it. -/
theorem get?_putAll_keyed (hdistinct : (table.map Prod.fst).Nodup) (t : Text) :
    (entries.putAll (keyed table)).get? (.text t) =
      (table.get? t).or (entries.get? (.text t)) := by
  induction table generalizing entries with
  | nil => rfl
  | cons entry rest ih =>
    obtain ⟨key, v⟩ := entry
    obtain ⟨hkey, hrest⟩ := List.nodup_cons.mp hdistinct
    have hcons : entries.putAll (keyed ((key, v) :: rest)) =
        (entries.put (.text key) v).putAll (keyed rest) := rfl
    rw [hcons, ih hrest, get?_put_text, Entries.get?]
    by_cases heq : key = t
    · subst heq
      have hnone : Entries.get? key rest = none := Entries.get?_eq_none_iff.mpr hkey
      rw [hnone, if_pos rfl, if_pos (beq_self_eq_true key)]
      rfl
    · rw [if_neg heq, if_neg (by simpa using heq)]

/-- Whether all settings are stored under texts. -/
def Textual (entries : Entries Key Value) : Prop := ∀ entry ∈ entries, ∃ t, entry.1 = .text t

theorem Textual.put (h : Textual entries) (t : Text) (v : Value) :
    Textual (entries.put (.text t) v) := by
  induction entries with
  | nil => exact List.forall_mem_singleton.mpr ⟨t, rfl⟩
  | cons entry rest ih =>
    obtain ⟨hentry, hrest⟩ := List.forall_mem_cons.mp h
    rw [Entries.put]
    split
    next => exact List.forall_mem_cons.mpr ⟨hentry, hrest⟩
    next => exact List.forall_mem_cons.mpr ⟨hentry, ih hrest⟩

theorem Textual.putAll_keyed (h : Textual entries) : Textual (entries.putAll (keyed table)) := by
  induction table generalizing entries with
  | nil => exact h
  | cons entry rest ih => exact ih (h.put entry.1 entry.2)

theorem textual_standard : Textual standard := by
  simp only [Textual, standard, List.forall_mem_cons, Key.text.injEq, exists_eq', List.not_mem_nil,
    false_implies, implies_true, and_self]

/-- What a table of settings comes to.  An empty table counts as absent, and that is the same as to
put nothing over the standard settings. -/
theorem ofData_table (table : Entries Text Value) (source : String) :
    ofData (.table table) source = .ok ⟨standard.putAll (keyed table), source⟩ := by
  cases table with
  | nil => rfl
  | cons entry rest => rfl

/-- The name of the source takes the place of one key only. -/
theorem get?_of_ne {settings : Settings} {name : String} (h : name ≠ sourceKey) :
    settings.get? name = settings.entries.get? (.text name) := by
  have hne : Text.whole sourceKey ≠ .whole name := fun heq => h (Text.whole.inj heq).symm
  exact get?_put_text.trans (if_neg hne)

/-- No plan depends on where its settings come from. -/
theorem ofSettings_eq_of_entries_eq {settings settings' : Settings}
    (h : settings.entries = settings'.entries) (given : List String)
    (environment : Entries String String) (dryRun : Bool) :
    Plan.ofSettings settings.get? given environment dryRun =
      Plan.ofSettings settings'.get? given environment dryRun := by
  have hget (name : String) (hname : name ≠ sourceKey) :
      settings.get? name = settings'.get? name := by
    rw [get?_of_ne hname, get?_of_ne hname, h]
  refine Plan.ofSettings_congr ?_ ?_ ?_ ?_ given environment dryRun
  · rw [hget "token_env" (by decide)]
  · rw [hget "crates" (by decide)]
  · rw [hget "publish_flags" (by decide)]
  · rw [hget "dry_run" (by decide)]

end Settings

end ReleaseTrain
