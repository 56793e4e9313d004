import FlagSelect.Proofs.Settings.Documents
import FlagSelect.Settings.Files

/-!
# Settings in files

Saving puts one file into a tree, and loading from the same path reads it. Where saving fails, no
file is written; all that it can leave behind is directories.
-/

namespace FlagSelect

namespace FileTree

variable {t t' t'' : FileTree} {path path' here there directories : List String}
variable {node : FileNode} {content : ByteArray} {p : FilePath}

theorem lookup_filter_ne {l : List (List String × FileNode)} (h : path' ≠ path) :
    (l.filter (·.1 != path)).lookup path' = l.lookup path' := by
  induction l with
  | nil => rfl
  | cons e l ih =>
      obtain ⟨key, node⟩ := e
      by_cases hkey : key = path
      · have hne : (path' == key) = false := by simpa [hkey] using h
        simpa [hkey, List.lookup_cons, hkey ▸ hne] using ih
      · simp [hkey, List.lookup_cons, ih]

/-- Above the directory of a tree there are directories only. -/
theorem find?_of_above (h : path.all (· == "..") = true) : t.find? path = some .directory := by
  rw [find?, if_pos h]

theorem find?_insert_self (h : t.find? path ≠ some .directory) :
    (t.insert path node).find? path = some node := by
  have hbelow : ¬ path.all (· == "..") = true := fun habove => h (find?_of_above habove)
  rw [find?, if_neg hbelow, insert, List.lookup_cons_self]

theorem find?_insert_of_ne (h : path' ≠ path) :
    (t.insert path node).find? path' = t.find? path' := by
  have hne : (path' == path) = false := by simpa using h
  simp only [find?, insert, List.lookup_cons, hne, lookup_filter_ne h]

/-! ## Directories -/

/-- Everything is where it was, and whatever else there is now is a directory. -/
def OnlyDirectories (t t' : FileTree) : Prop :=
  ∀ path, t'.find? path = t.find? path ∨ t.find? path = none ∧ t'.find? path = some .directory

theorem OnlyDirectories.refl : OnlyDirectories t t := fun _ => .inl rfl

theorem OnlyDirectories.trans (h : OnlyDirectories t t') (h' : OnlyDirectories t' t'') :
    OnlyDirectories t t'' := by
  intro path
  rcases h path with hsame | ⟨hnone, hmade⟩ <;> rcases h' path with hsame' | ⟨hnone', hmade'⟩
  · exact .inl (hsame'.trans hsame)
  · exact .inr ⟨hsame ▸ hnone', hmade'⟩
  · exact .inr ⟨hnone, hsame'.trans hmade⟩
  · exact .inr ⟨hnone, hmade'⟩

theorem OnlyDirectories.find?_eq (h : OnlyDirectories t t') (hpath : t.find? path = some node) :
    t'.find? path = some node := by
  rcases h path with hsame | ⟨hnone, -⟩
  · exact hsame.trans hpath
  · cases hnone.symm.trans hpath

theorem onlyDirectories_insert (h : t.find? path = none) :
    OnlyDirectories t (t.insert path .directory) := by
  intro path'
  by_cases hpath : path' = path
  · subst hpath
    exact .inr ⟨h, find?_insert_self (by simp [h])⟩
  · exact .inl (find?_insert_of_ne hpath)

theorem enter_onlyDirectories {create : Bool} :
    OnlyDirectories t (t.enter create here directories).2 := by
  induction directories generalizing t here with
  | nil => exact .refl
  | cons name directories ih =>
      rw [enter]
      split
      next => exact ih
      next =>
        dsimp only
        split
        next => exact ih
        next => exact .refl
        next hmissing =>
          split
          next => exact (onlyDirectories_insert hmissing).trans ih
          next => exact .refl

theorem makeDirectories_onlyDirectories : OnlyDirectories t (t.makeDirectories p).2 := by
  unfold makeDirectories
  split
  next => exact enter_onlyDirectories
  next => exact .refl

/-- A step up. -/
theorem enter_up {create : Bool} :
    t.enter create here (".." :: directories) = t.enter create (above here) directories := by
  rw [enter, if_pos rfl]

/-- A step down into a directory that is there. -/
theorem enter_down {name : String} {create : Bool} (hname : name ≠ "..")
    (h : t.find? (here ++ [name]) = some .directory) :
    t.enter create here (name :: directories) = t.enter create (here ++ [name]) directories := by
  rw [enter, if_neg hname]
  simp only [h]

/-- A way that does not end at its first step goes up, or goes down into a directory that is there
or has been made. -/
theorem enter_cases {name : String} {create : Bool}
    (h : (t.enter create here (name :: directories)).1 = some there) :
    name = ".." ∨ name ≠ ".." ∧ ∃ t₁ : FileTree,
      (t₁ = t ∨ create = true) ∧ t₁.find? (here ++ [name]) = some .directory ∧
      t.enter create here (name :: directories) = t₁.enter create (here ++ [name]) directories := by
  by_cases hname : name = ".."
  · exact .inl hname
  · refine .inr ⟨hname, ?_⟩
    match hnext : t.find? (here ++ [name]) with
    | some .directory => exact ⟨t, .inl rfl, hnext, enter_down hname hnext⟩
    | some (.file _) => simp [enter, hname, hnext] at h
    | none =>
        by_cases hmay : create = true ∧ FilePath.isName name = true
        · refine ⟨t.insert (here ++ [name]) .directory, .inr hmay.1,
            find?_insert_self (by simp [hnext]), ?_⟩
          simp [enter, hname, hnext, hmay]
        · simp [enter, hname, hnext, hmay] at h

/-- What has been made on a way is there when it is gone again. -/
theorem enter_enter {create : Bool} (h : (t.enter create here directories).1 = some there) :
    ((t.enter create here directories).2.enter false here directories).1 = some there := by
  induction directories generalizing t here with
  | nil => exact h
  | cons name directories ih =>
      obtain rfl | ⟨hname, t₁, -, hnext, henter⟩ := enter_cases h
      · rw [enter_up] at h ⊢
        rw [enter_up]
        exact ih h
      · rw [henter] at h ⊢
        rw [enter_down hname (enter_onlyDirectories.find?_eq hnext)]
        exact ih h

/-! ## Writing and reading -/

/-- A way that leads through directories leads to the same place when a file is put elsewhere. -/
theorem enter_insert (hpath : t.find? path ≠ some .directory)
    (h : (t.enter false here directories).1 = some there) :
    ((t.insert path node).enter false here directories).1 = some there := by
  induction directories generalizing here with
  | nil => exact h
  | cons name directories ih =>
      obtain rfl | ⟨hname, t₁, rfl | hcreate, hnext, henter⟩ := enter_cases h
      · rw [enter_up] at h ⊢
        exact ih h
      · have hne : here ++ [name] ≠ path := by
          rintro rfl
          exact hpath hnext
        rw [enter_down hname ((find?_insert_of_ne hne).trans hnext)]
        exact ih (henter ▸ h)
      · cases hcreate

theorem target?_insert (hpath : t.find? path ≠ some .directory) (h : t.target? p = some path') :
    (t.insert path node).target? p = some path' := by
  unfold target? at h ⊢
  split at h
  next => cases h
  next husable =>
    rw [if_neg husable]
    obtain ⟨there, henter, hname⟩ := Option.bind_eq_some_iff.mp h
    exact Option.bind_eq_some_iff.mpr ⟨there, enter_insert hpath henter, hname⟩

/-- What is written to a path is read from it. -/
theorem read?_write? (h : t.write? p content = some t') : t'.read? p = some content := by
  obtain ⟨path, htarget, hplace⟩ := Option.bind_eq_some_iff.mp h
  have hpath : t.find? path ≠ some .directory := by
    intro hdirectory
    simp [hdirectory] at hplace
  have hinsert : t.insert path (.file content) = t' := by
    split at hplace
    next hdirectory => exact absurd hdirectory hpath
    next => exact Option.some.inj hplace
  have htarget' : t'.target? p = some path := hinsert ▸ target?_insert hpath htarget
  have hfind : t'.find? path = some (.file content) := hinsert ▸ find?_insert_self hpath
  simp [read?, htarget', hfind]

/-- Whether a file can be put at a path when the directories on the way are there. -/
def Takes (t : FileTree) (p : FilePath) : Prop :=
  FilePath.isUsable p.text = true ∧ ∃ name, p.name = some name ∧ FilePath.isName name = true ∧
    ∀ here, (t.enter false [] p.directories).1 = some here →
      t.find? (here ++ [name]) ≠ some .directory

/-- Once the directories of a path have been made, a file can be written there. -/
theorem write?_makeDirectories (hmade : (t.makeDirectories p).1 = true)
    (h : (t.makeDirectories p).2.Takes p) :
    ∃ t', (t.makeDirectories p).2.write? p content = some t' := by
  obtain ⟨husable, name, hname, hlength, hfree⟩ := h
  unfold makeDirectories at hmade hfree ⊢
  split at hmade
  next hdirectories =>
    rw [if_pos hdirectories] at hfree ⊢
    obtain ⟨here, hhere⟩ := Option.isSome_iff_exists.mp hmade
    have hthere := enter_enter hhere
    have htarget : (t.enter true [] p.directories).2.target? p = some (here ++ [name]) := by
      simp [target?, husable, hthere, hname, hlength]
    have hplace := hfree here hthere
    rw [write?, htarget]
    dsimp only [Option.bind_eq_bind, Option.bind_some]
    split
    next hdirectory => exact absurd hdirectory hplace
    next => exact ⟨_, rfl⟩
  next => cases hmade

end FileTree

namespace Settings

open FileTree Toml.Grammar

variable {s : Settings} {t t' : FileTree} {p : FilePath} {text : String}

theorem fromUTF8?_toUTF8 : String.fromUTF8? text.toUTF8 = some text :=
  dif_pos text.isValidUTF8

/-! ## Loading and saving -/

/-- The ways in which a save can end, in the order in which they are ruled out. -/
theorem save_cases :
    ((t.makeDirectories p).1 = false ∧
      s.save t p = (.error .createDirectory, (t.makeDirectories p).2)) ∨
    (t.makeDirectories p).1 = true ∧
      (s.write? = none ∧ s.save t p = (.error .serialize, (t.makeDirectories p).2) ∨
      ∃ text, s.write? = some text ∧
        ((t.makeDirectories p).2.write? p text.toUTF8 = none ∧
          s.save t p = (.error .write, (t.makeDirectories p).2) ∨
        ∃ t', (t.makeDirectories p).2.write? p text.toUTF8 = some t' ∧
          s.save t p = (.ok (), t'))) := by
  rw [save]
  obtain ⟨made, t₁⟩ := t.makeDirectories p
  cases made with
  | false => exact .inl ⟨rfl, rfl⟩
  | true =>
      refine .inr ⟨rfl, ?_⟩
      cases s.write? with
      | none => exact .inl ⟨rfl, rfl⟩
      | some text =>
          refine .inr ⟨text, rfl, ?_⟩
          cases hput : t₁.write? p text.toUTF8 with
          | none => exact .inl ⟨rfl, by simp only [hput]⟩
          | some t' => exact .inr ⟨t', rfl, by simp only [hput]⟩

/-- What is saved is loaded as its text is read. -/
theorem load_of_save (hwrite : s.write? = some text) (h : s.save t p = (.ok (), t')) :
    t'.read? p = some text.toUTF8 ∧ load t' p = (read text).mapError .content := by
  rcases save_cases (s := s) (t := t) (p := p) with
    ⟨-, hs⟩ | ⟨-, ⟨-, hs⟩ | ⟨text', hwrite', ⟨-, hs⟩ | ⟨t'', hput, hs⟩⟩⟩
  all_goals cases hs.symm.trans h
  cases hwrite'.symm.trans hwrite
  have hread := read?_write? hput
  refine ⟨hread, ?_⟩
  rw [load, hread, Option.bind_some, fromUTF8?_toUTF8]

/-- A save that fails puts no file anywhere and takes none away. -/
theorem save_error {e : FileError} (h : (s.save t p).1 = .error e) :
    t.OnlyDirectories (s.save t p).2 := by
  rcases save_cases (s := s) (t := t) (p := p) with
    ⟨-, hs⟩ | ⟨-, ⟨-, hs⟩ | ⟨_, -, ⟨-, hs⟩ | ⟨_, -, hs⟩⟩⟩
  all_goals rw [hs] at h ⊢
  · exact makeDirectories_onlyDirectories
  · exact makeDirectories_onlyDirectories
  · exact makeDirectories_onlyDirectories
  · cases h

/-- Settings with a number that is too large are turned down once the directories are there. -/
theorem save_of_not_small (h : ¬ s.Small) :
    (s.save t p).1 = .error (if (t.makeDirectories p).1 then .serialize else .createDirectory) := by
  rcases save_cases (s := s) (t := t) (p := p) with
    ⟨hmade, hs⟩ | ⟨hmade, ⟨-, hs⟩ | ⟨_, hwrite, -⟩⟩
  · simp [hs, hmade]
  · simp [hs, hmade]
  · cases (write?_eq_none h).symm.trans hwrite

theorem Small.save_ne_serialize (h : s.Small) : (s.save t p).1 ≠ .error .serialize := by
  obtain ⟨text, hwrite, -⟩ := h.write?
  rcases save_cases (s := s) (t := t) (p := p) with
    ⟨-, hs⟩ | ⟨-, ⟨hnone, -⟩ | ⟨_, -, ⟨-, hs⟩ | ⟨_, -, hs⟩⟩⟩
  · simp [hs]
  · cases hnone.symm.trans hwrite
  · simp [hs]
  · simp [hs]

/-- Nothing but its place can keep small settings from being saved. -/
theorem Small.save_ok (h : s.Small) (hmade : (t.makeDirectories p).1 = true)
    (htakes : (t.makeDirectories p).2.Takes p) : (s.save t p).1 = .ok () := by
  obtain ⟨text, hwrite, -⟩ := h.write?
  rcases save_cases (s := s) (t := t) (p := p) with
    ⟨hblocked, -⟩ | ⟨-, ⟨hnone, -⟩ | ⟨text', -, ⟨hput, -⟩ | ⟨_, -, hs⟩⟩⟩
  · cases hblocked.symm.trans hmade
  · cases hnone.symm.trans hwrite
  · obtain ⟨t', hput'⟩ := write?_makeDirectories hmade htakes
    cases hput.symm.trans hput'
  · rw [hs]

/-- Settings come back from the file that they are saved to, or their first defect does. What is
too large for a file is not saved. A file with a section of some settings gives these, and the
defaults for the others. -/
theorem round_trip :
    (∀ s : Settings, s.Small → ∃ text, s.write? = some text ∧ read text = s.checked ∧
      ∀ (t : FileTree) (p : FilePath), (s.save t p).1 ≠ .error .serialize ∧
        ((t.makeDirectories p).1 = true → (t.makeDirectories p).2.Takes p →
          (s.save t p).1 = .ok ()) ∧
        ∀ t', s.save t p = (.ok (), t') →
          t'.read? p = some text.toUTF8 ∧ load t' p = s.checked.mapError .content) ∧
    (∀ s : Settings, ¬ s.Small → ∀ (t : FileTree) (p : FilePath),
      (s.save t p).1 =
        .error (if (t.makeDirectories p).1 then .serialize else .createDirectory) ∧
      t.OnlyDirectories (s.save t p).2) ∧
    (∀ (l : List Setting) (text : String), (l.map Setting.name).Nodup →
      Lines text.toList (table l) →
      read text = (l.foldl Setting.override {}).checked) := by
  refine ⟨fun s hsmall => ?_, fun s hlarge t p => ?_, fun l text hnames htext => ?_⟩
  · obtain ⟨text, hwrite, hread⟩ := hsmall.read_write
    refine ⟨text, hwrite, hread, fun t p => ⟨hsmall.save_ne_serialize, hsmall.save_ok, ?_⟩⟩
    intro t' hsave
    obtain ⟨hfile, hload⟩ := load_of_save hwrite hsave
    exact ⟨hfile, hread ▸ hload⟩
  · have hfailed := save_of_not_small (t := t) (p := p) hlarge
    exact ⟨hfailed, save_error hfailed⟩
  · exact read_table hnames htext

theorem lines_tuned :
    Lines "[ cache ] # tuned\r\n'retained_executors' = 0x1_0".toList (table [.retained 16]) := by
  have hspace : Blanks [' '] := by simp [Blanks]
  have hcache : Key "cache".toList "cache" := key_of_all (by decide) (by decide)
  have htuned : ∀ c ∈ " tuned".toList, Toml.isTextChar c = true :=
    List.all_eq_true.mp (by decide)
  have hheader : Line "[ cache ] # tuned".toList [.header ["cache"]] :=
    .phrase blanks_nil (.header hspace hcache hspace) (.comment hspace htuned)
  have hname : ∀ c ∈ "retained_executors".toList, Toml.isTextChar c = true ∧ c ≠ '\'' := by
    intro c hc
    simpa using List.all_eq_true.mp (by decide : "retained_executors".toList.all
      (fun c => Toml.isTextChar c && c != '\'') = true) c hc
  have hkey : Key "'retained_executors'".toList "retained_executors" :=
    @Key.literal "retained_executors".toList hname
  have hone : Numeral 16 ['1'] 1 := .digit ⟨by decide, by decide⟩
  have hsixteen : Numeral 16 ['1', '_', '0'] 16 := .spaced (d := 0) hone ⟨by decide, by decide⟩
  have hwhole : Whole ['0', 'x', '1', '_', '0'] 16 := .based (by simp) hsixteen
  have hliteral : Toml.Grammar.Literal "0x1_0".toList (.integer 16) := .number hwhole (by decide)
  have hentry : Line "'retained_executors' = 0x1_0".toList
      [.entry ["retained_executors"] (.scalar (.integer 16))] :=
    .phrase blanks_nil (.entry hkey hspace hspace hliteral) (.blank blanks_nil)
  exact .more hheader .returned (.last hentry)

/-- A save into a directory that is missing, the same with a number that is too large, and a text
with one setting. -/
theorem round_trip_nested :
    let p := FilePath.ofString "nested/cache.toml"
    let large : Settings := { retained := 1 <<< 63 }
    (∃ t', compact.save {} p = (.ok (), t') ∧ load t' p = .ok compact) ∧
    (large.save {} p).1 = .error .serialize ∧ FileTree.OnlyDirectories {} (large.save {} p).2 ∧
    read "[ cache ] # tuned\r\n'retained_executors' = 0x1_0" = .ok { retained := 16 } := by
  intro p large
  obtain ⟨hkept, hrefused, hread⟩ := round_trip
  have hsmall : compact.Small := ⟨by decide, by decide, by decide⟩
  have hlarge : ¬ large.Small := fun h => absurd h.retained (by decide)
  have hdirectory : FilePath.isUsable "nested" = true := by
    simp [FilePath.isUsable]
    decide
  have hpath : FilePath.isUsable "nested/cache.toml" = true := by
    simp [FilePath.isUsable]
    decide
  have hmade : makeDirectories {} p = (true, ⟨[(["nested"], .directory)]⟩) := by
    exact if_pos hdirectory
  have htakes : (makeDirectories {} p).2.Takes p := by
    rw [hmade]
    refine ⟨hpath, "cache.toml", rfl, by decide, fun here hhere => ?_⟩
    cases hhere
    exact nofun
  obtain ⟨text, -, -, hsaved⟩ := hkept compact hsmall
  obtain ⟨-, hok, hloaded⟩ := hsaved {} p
  have hsave : compact.save {} p = (.ok (), (compact.save {} p).2) :=
    Prod.ext (hok (by rw [hmade]) htakes) rfl
  refine ⟨⟨_, hsave, (hloaded _ hsave).2⟩, ?_, ?_, ?_⟩
  · rw [(hrefused large hlarge {} p).1, hmade]
    rfl
  · exact (hrefused large hlarge {} p).2
  · exact hread [.retained 16] _ (by decide) lines_tuned

/-- A file in the way of a directory is found before a number that is too large. -/
theorem save_blocked : ¬ ∀ (s : Settings) (t : FileTree) (p : FilePath), ¬ s.Small →
    (s.save t p).1 = .error .serialize := by
  intro h
  have hlarge : ¬ ({ initialCapacity := 1 <<< 63 } : Settings).Small :=
    fun h => absurd h.initialCapacity (by decide)
  have hdirectory : FilePath.isUsable "f" = true := by
    simp [FilePath.isUsable]
    decide
  have hblocked : makeDirectories ⟨[(["f"], .file ⟨#[]⟩)]⟩ (FilePath.ofString "f/x.toml") =
      (false, ⟨[(["f"], .file ⟨#[]⟩)]⟩) := if_pos hdirectory
  have hrefused := h _ ⟨[(["f"], .file ⟨#[]⟩)]⟩ (.ofString "f/x.toml") hlarge
  rw [save_of_not_small hlarge, hblocked] at hrefused
  cases hrefused

end Settings

end FlagSelect
