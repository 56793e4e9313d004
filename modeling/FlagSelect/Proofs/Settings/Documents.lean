import FlagSelect.Proofs.Toml.Reading
import FlagSelect.Settings.Document

/-!
# Settings in documents

A document that is one section of settings gives the defaults with these settings in their place,
however it is written (`Settings.read_table`). Settings are written as one such section
(`Settings.lines_write`).
-/

namespace FlagSelect

open Toml.Grammar

/-- One of the settings of a cache. -/
inductive Setting where
  | initialCapacity (n : Nat)
  | maxCapacity (n : Nat)
  | retained (n : Nat)
  | prepareEagerly (b : Bool)

namespace Setting

/-- The key of a setting. -/
def name : Setting → String
  | initialCapacity _ => "initial_capacity"
  | maxCapacity _ => "max_capacity"
  | retained _ => "retained_executors"
  | prepareEagerly _ => "prepare_eagerly"

def scalar : Setting → Toml.Scalar
  | initialCapacity n | maxCapacity n | retained n => .integer n
  | prepareEagerly b => .boolean b

/-- Settings with this one in the place of theirs. -/
def override (s : Settings) : Setting → Settings
  | initialCapacity n => { s with initialCapacity := n }
  | maxCapacity n => { s with maxCapacity := n }
  | retained n => { s with retained := n }
  | prepareEagerly b => { s with prepareEagerly := b }

end Setting

namespace Settings

/-- The statements of a section of settings. -/
def table (l : List Setting) : List Toml.Statement :=
  .header ["cache"] :: l.map fun x => .entry [x.name] (.scalar x.scalar)

/-- The settings themselves if they are free of defects, and otherwise the first defect. -/
def checked (s : Settings) : Except ReadError Settings :=
  match s.defect? with
  | some d => .error (.invalid d)
  | none => .ok s

/-! ## Reading -/

/-- Adding an entry and putting a setting in its place come to the same. -/
theorem Given.add?_override (g : Given) (x : Setting) :
    ∃ g', g.add? x.name (.scalar x.scalar) = some g' ∧ g'.complete = x.override g.complete := by
  cases x <;> exact ⟨_, rfl, rfl⟩

theorem Given.addAll?_override (g : Given) (l : List Setting) :
    ∃ g', g.addAll? (l.map fun x => ([x.name], .scalar x.scalar)) = some g' ∧
      g'.complete = l.foldl Setting.override g.complete := by
  induction l generalizing g with
  | nil => exact ⟨g, rfl, rfl⟩
  | cons x l ih =>
      obtain ⟨g₁, hadd, hcomplete⟩ := g.add?_override x
      obtain ⟨g₂, hall, hfold⟩ := ih g₁
      refine ⟨g₂, ?_, ?_⟩
      · rw [List.map_cons, addAll?, hadd]
        exact hall
      · rw [List.foldl_cons, ← hcomplete, hfold]

theorem entriesOf?_entries (entries : List (List String × Toml.Value)) :
    entriesOf? (entries.map fun e => .entry e.1 e.2) = some entries := by
  rw [entriesOf?]
  induction entries with
  | nil => rfl
  | cons e entries ih => simp [ih]

theorem disjoint_of_nodup {names : List String} (h : names.Nodup) :
    Toml.disjoint (names.map fun name => [name]) = true := by
  induction names with
  | nil => rfl
  | cons name names ih =>
      obtain ⟨hname, hnames⟩ := List.nodup_cons.mp h
      have hapart : ∀ other ∈ names, Toml.overlap [name] [other] = false := by
        intro other hother
        have hne : name ≠ other := by
          rintro rfl
          exact hname hother
        simp [Toml.overlap, List.isPrefixOf, hne, hne.symm]
      simpa [Toml.disjoint, ih hnames] using hapart

/-- A section is read as the defaults with its settings in their place, and then checked. -/
theorem read_table {l : List Setting} {text : String} (hnames : (l.map Setting.name).Nodup)
    (htext : Lines text.toList (table l)) :
    read text = (l.foldl Setting.override {}).checked := by
  obtain ⟨g, hadd, hcomplete⟩ := Given.addAll?_override {} l
  have hentries : entriesOf? (l.map fun x => .entry [x.name] (.scalar x.scalar)) =
      some (l.map fun x => ([x.name], .scalar x.scalar)) := by
    simpa [Function.comp_def] using
      entriesOf?_entries (l.map fun x => ([x.name], .scalar x.scalar))
  have hdisjoint : Toml.disjoint (l.map fun x => [x.name]) = true := by
    simpa [Function.comp_def] using disjoint_of_nodup hnames
  have hgiven : (Toml.Document.read? text).bind ofStatements? = some g := by
    rw [htext.read?, Option.bind_some, table, ofStatements?, hentries]
    simpa [Function.comp_def, hdisjoint] using hadd
  have hdefaults : ({} : Given).complete = {} := rfl
  rw [hdefaults] at hcomplete
  rw [read, hgiven, ← hcomplete]
  rfl

/-! ## Writing -/

/-- All settings, one by one. -/
def all (s : Settings) : List Setting :=
  [.initialCapacity s.initialCapacity, .maxCapacity s.maxCapacity, .retained s.retained,
    .prepareEagerly s.prepareEagerly]

/-- Settings whose numbers are within 64 bits with a sign. -/
structure Small (s : Settings) : Prop where
  initialCapacity : s.initialCapacity < 1 <<< 63
  maxCapacity : s.maxCapacity < 1 <<< 63
  retained : s.retained < 1 <<< 63

theorem small_iff {s : Settings} : s.Small ↔ s.initialCapacity ≤ largestNumber ∧
    s.maxCapacity ≤ largestNumber ∧ s.retained ≤ largestNumber := by
  have hlargest (n : Nat) : n ≤ largestNumber ↔ n < 1 <<< 63 := by
    rw [largestNumber]
    omega
  simp only [hlargest]
  exact ⟨fun h => ⟨h.initialCapacity, h.maxCapacity, h.retained⟩, fun h => ⟨h.1, h.2.1, h.2.2⟩⟩

theorem write?_eq_none {s : Settings} (h : ¬ s.Small) : s.write? = none := by
  rw [small_iff] at h
  rw [write?, if_neg h]

theorem key_of_all {name : String} (hne : name.toList ≠ [])
    (h : name.toList.all Toml.isBareKeyChar = true) : Key name.toList name := by
  simpa using Key.bare hne (List.all_eq_true.mp h)

theorem key_name (x : Setting) : Key x.name.toList x.name := by
  have hall : ∀ name ∈ ["initial_capacity", "max_capacity", "retained_executors",
      "prepare_eagerly"], name.toList ≠ [] ∧ name.toList.all Toml.isBareKeyChar = true := by
    decide
  obtain ⟨hne, hbare⟩ := hall x.name (by cases x <;> simp [Setting.name])
  exact key_of_all hne hbare

theorem lines_header {rest : List Char} {ss : List Toml.Statement} (hrest : Lines rest ss) :
    Lines ("[cache]\n".toList ++ rest) (.header ["cache"] :: ss) := by
  have hkey : Key "cache".toList "cache" := key_of_all (by decide) (by decide)
  have hline := Line.phrase blanks_nil (.header blanks_nil hkey blanks_nil) (.blank blanks_nil)
  exact Lines.more hline .feed hrest

theorem lines_entry {x : Setting} {value rest : List Char} {ss : List Toml.Statement}
    (hvalue : Toml.Grammar.Literal value x.scalar) (hrest : Lines rest ss) :
    Lines (x.name.toList ++ ' ' :: '=' :: ' ' :: (value ++ '\n' :: rest))
      (.entry [x.name] (.scalar x.scalar) :: ss) := by
  have hspace : Blanks [' '] := by simp [Blanks]
  have hline := Line.phrase blanks_nil (.entry (key_name x) hspace hspace hvalue) (.blank blanks_nil)
  simpa using Lines.more hline .feed hrest

theorem literal_toString {n : Nat} (h : n < 1 <<< 63) :
    Toml.Grammar.Literal (toString n).toList (.integer n) :=
  .number (whole_toString n) h

theorem literal_bool (b : Bool) :
    Toml.Grammar.Literal (if b then "true" else "false").toList (.boolean b) := by
  cases b
  · exact .no
  · exact .yes

/-- Settings are written as a section of all of them. -/
theorem Small.write? {s : Settings} (h : s.Small) :
    ∃ text, s.write? = some text ∧ Lines text.toList (table s.all) := by
  rw [Settings.write?, if_pos (small_iff.mp h)]
  refine ⟨_, rfl, ?_⟩
  have hinitial := literal_toString h.initialCapacity
  have hmax := literal_toString h.maxCapacity
  have hretained := literal_toString h.retained
  have heagerly := literal_bool s.prepareEagerly
  have hend : Lines [] [] := .last (.idle (.blank blanks_nil))
  have hlines := lines_header <|
    lines_entry (x := .initialCapacity s.initialCapacity) hinitial <|
    lines_entry (x := .maxCapacity s.maxCapacity) hmax <|
    lines_entry (x := .retained s.retained) hretained <|
    lines_entry (x := .prepareEagerly s.prepareEagerly) heagerly hend
  simpa [Setting.name, table, all] using hlines

/-- What settings are written to is read as the same settings, or as their first defect. -/
theorem Small.read_write {s : Settings} (h : s.Small) :
    ∃ text, s.write? = some text ∧ read text = s.checked := by
  obtain ⟨text, hwrite, hlines⟩ := h.write?
  have hnames : (s.all.map Setting.name).Nodup := by simp [all, Setting.name]
  exact ⟨text, hwrite, read_table hnames hlines⟩

end Settings

end FlagSelect
