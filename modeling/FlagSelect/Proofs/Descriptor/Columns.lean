import FlagSelect.Proofs.Descriptor.Validity

/-!
# The text of a column

A path is told by its text: between the points of the text stand its segments, all but the last
with a closing parenthesis, and in front of them the letter of the table with as many opening ones.
Letters are no parentheses, so that a letter is not taken for a segment, whatever the segments are.
Main statement: `Column.rendering`.
-/

namespace FlagSelect

/-- No piece between points has a point in it. -/
theorem not_mem_of_mem_splitDots {l : List Char} : ∀ piece ∈ splitDots l, '.' ∉ piece := by
  induction l with
  | nil => simp [splitDots]
  | cons c l ih =>
      rw [splitDots]
      split
      next => simpa using ih
      next hc =>
        have hc : '.' ≠ c := fun h => hc h.symm
        split
        next piece pieces hl =>
          rw [hl] at ih
          simpa [hc] using ih
        next => simpa using hc

namespace Column

/-- A path with segments, none of which has a point in it. -/
structure Segmented (c : Column) : Prop where
  nonempty : c.segments ≠ []
  undotted : ∀ s ∈ c.segments, '.' ∉ s.toList

theorem segmented_ofDotted (table : Nat) (path : String) : (ofDotted table path).Segmented where
  nonempty := segments_ofDotted table path
  undotted s hs := by
    obtain ⟨piece, hpiece, rfl⟩ := List.mem_map.mp hs
    rw [String.toList_ofList]
    exact not_mem_of_mem_splitDots piece hpiece

theorem insertAt_append (out inner : String) (c : Char) :
    insertAt (out ++ inner) out.length c = out ++ (c.toString ++ inner) := by
  have hinsert (l l' : List Char) : (l ++ l').insertIdx l.length c = l ++ c :: l' := by
    induction l with
    | nil => simp
    | cons d l ih => simp [ih]
  rw [insertAt, ← String.toList_inj, String.toList_ofList, String.toList_append,
    ← String.length_toList, hinsert]
  simp

/-- What is wrapped behind a text is wrapped as it would be alone. -/
theorem foldl_insertAt (out inner : String) (rest : List String) :
    rest.foldl (fun written s => insertAt written out.length '(' ++ ")." ++ s) (out ++ inner) =
      out ++ rest.foldl wrap inner := by
  induction rest generalizing inner with
  | nil => rfl
  | cons s rest ih =>
      have hwrap : insertAt (out ++ inner) out.length '(' ++ ")." ++ s = out ++ wrap inner s := by
        rw [insertAt_append, wrap, String.append_assoc, String.append_assoc, String.append_assoc,
          String.append_assoc]
        rfl
      rw [List.foldl_cons, List.foldl_cons, hwrap]
      exact ih (wrap inner s)

/-- Parentheses are put where the column starts, and the text before it stays as it is. -/
theorem appendTo_eq (c : Column) (out : String) : c.appendTo out = out ++ c.text := by
  unfold appendTo text
  split
  next => simp
  next first rest _ => rw [String.append_assoc, foldl_insertAt]

/-! ## The pieces of a text -/

/-- Segments between the points of a text: all but the last are followed by a parenthesis. -/
def closed (first : List Char) : List String → List (List Char)
  | [] => [first]
  | s :: rest => (first ++ [')']) :: closed s.toList rest

/-- What stands between the points of a column's text. -/
def pieces (table : Nat) (first : List Char) (rest : List String) : List (List Char) :=
  match alias? table with
  | some letter => (List.replicate rest.length '(' ++ [letter]) :: closed first rest
  | none => closed (List.replicate rest.length '(' ++ first) rest

variable {table table' : Nat} {first first' l : List Char} {rest rest' : List String}

theorem closed_ne_nil : closed first rest ≠ [] := by
  cases rest <;> simp [closed]

theorem intercalate_closed_append :
    ['.'].intercalate (closed (l ++ first) rest) =
      l ++ ['.'].intercalate (closed first rest) := by
  cases rest with
  | nil => simp [closed]
  | cons s rest =>
      simp [closed, List.intercalate_cons_of_ne_nil closed_ne_nil]

theorem toList_wraps (inner : String) : (rest.foldl wrap inner).toList =
    List.replicate rest.length '(' ++ ['.'].intercalate (closed inner.toList rest) := by
  induction rest generalizing inner with
  | nil => simp [closed]
  | cons s rest ih =>
      have hwrap : (wrap inner s).toList = ('(' :: inner.toList ++ [')', '.']) ++ s.toList := by
        simp [wrap]
      rw [List.foldl_cons, ih, hwrap, intercalate_closed_append, closed,
        List.intercalate_cons_of_ne_nil closed_ne_nil, List.length_cons, List.replicate_succ']
      simp

theorem toList_text {first : String} : (text ⟨table, first :: rest⟩).toList =
    ['.'].intercalate (pieces table first.toList rest) := by
  have h : text ⟨table, first :: rest⟩ = rest.foldl wrap (qualifier table ++ first) := rfl
  rw [h, toList_wraps, String.toList_append, intercalate_closed_append, qualifier, pieces]
  cases alias? table with
  | some letter => simp [List.intercalate_cons_of_ne_nil closed_ne_nil]
  | none => simp [intercalate_closed_append]

theorem not_mem_closed (hfirst : '.' ∉ first) (hrest : ∀ s ∈ rest, '.' ∉ s.toList) :
    ∀ piece ∈ closed first rest, '.' ∉ piece := by
  induction rest generalizing first with
  | nil => simpa [closed] using hfirst
  | cons s rest ih =>
      intro piece hpiece
      rcases List.mem_cons.mp hpiece with rfl | hpiece
      · simp [hfirst]
      · exact ih (hrest s List.mem_cons_self) (fun t ht => hrest t (List.mem_cons_of_mem s ht))
          piece hpiece

theorem alias_isLower {letter : Char} (h : alias? table = some letter) :
    letter.isLower = true := by
  have hall : ∀ n < 27, (alias? n).all Char.isLower := by decide
  exact (Option.all_eq_true _ _).mp (hall table (lt_of_alias? h)) letter h

theorem table_eq_zero (htable : table ≤ 26) (h : alias? table = none) : table = 0 := by
  unfold alias? at h
  split at h
  next => cases h
  next hrange => omega

theorem not_mem_pieces (hfirst : '.' ∉ first) (hrest : ∀ s ∈ rest, '.' ∉ s.toList) :
    ∀ piece ∈ pieces table first rest, '.' ∉ piece := by
  unfold pieces
  split
  next letter hletter =>
    have hdot : '.' ≠ letter := fun h => by simpa [← h] using alias_isLower hletter
    simpa [hdot] using not_mem_closed hfirst hrest
  next => exact not_mem_closed (by simpa using hfirst) hrest

theorem closed_injective (h : closed first rest = closed first' rest') :
    first = first' ∧ rest = rest' := by
  induction rest generalizing first first' rest' with
  | nil =>
      cases rest' with
      | nil => simpa [closed] using h
      | cons s' rest' => simp [closed, closed_ne_nil.symm] at h
  | cons s rest ih =>
      cases rest' with
      | nil => simp [closed, closed_ne_nil] at h
      | cons s' rest' =>
          obtain ⟨hhead, htail⟩ := List.cons.inj h
          obtain ⟨hs, hrest⟩ := ih htail
          exact ⟨List.append_cancel_right hhead, by rw [String.toList_inj.mp hs, hrest]⟩

/-- A letter is taken for no segment: behind a segment comes a parenthesis. -/
theorem closed_ne_lettered {letter : Char} (hletter : letter.isLower = true) :
    closed first rest ≠ (l ++ [letter]) :: closed first' rest' := by
  cases rest with
  | nil => simp [closed, closed_ne_nil.symm]
  | cons s rest =>
      intro h
      have hlast := (List.append_inj' (List.cons.inj h).1 rfl).2
      cases List.singleton_inj.mp hlast
      exact absurd hletter (by decide)

theorem pieces_ne_nil : pieces table first rest ≠ [] := by
  unfold pieces
  split
  next => simp
  next => exact closed_ne_nil

theorem pieces_injective (htable : table ≤ 26) (htable' : table' ≤ 26)
    (h : pieces table first rest = pieces table' first' rest') :
    table = table' ∧ first = first' ∧ rest = rest' := by
  unfold pieces at h
  cases hletter : alias? table with
  | some letter =>
      cases hletter' : alias? table' with
      | some letter' =>
          rw [hletter, hletter'] at h
          obtain ⟨hhead, htail⟩ := List.cons.inj h
          have hsame := List.singleton_inj.mp (List.append_inj' hhead rfl).2
          exact ⟨Descriptor.alias?_injective hletter (hsame ▸ hletter'), closed_injective htail⟩
      | none =>
          rw [hletter, hletter'] at h
          exact absurd h.symm (closed_ne_lettered (alias_isLower hletter))
  | none =>
      cases hletter' : alias? table' with
      | some letter' =>
          rw [hletter, hletter'] at h
          exact absurd h (closed_ne_lettered (alias_isLower hletter'))
      | none =>
          rw [hletter, hletter'] at h
          obtain ⟨hhead, rfl⟩ := closed_injective h
          exact ⟨(table_eq_zero htable hletter).trans (table_eq_zero htable' hletter').symm,
            List.append_cancel_left hhead, rfl⟩

theorem text_injective {c c' : Column} (hc : c.Segmented) (hc' : c'.Segmented)
    (htable : c.table ≤ 26) (htable' : c'.table ≤ 26) (h : c.text = c'.text) :
    c.table = c'.table ∧ c.segments = c'.segments := by
  obtain ⟨table, segments⟩ := c
  obtain ⟨table', segments'⟩ := c'
  obtain ⟨first, rest, rfl⟩ := List.exists_cons_of_ne_nil hc.nonempty
  obtain ⟨first', rest', rfl⟩ := List.exists_cons_of_ne_nil hc'.nonempty
  obtain ⟨hfirst, hrest⟩ := List.forall_mem_cons.mp hc.undotted
  obtain ⟨hfirst', hrest'⟩ := List.forall_mem_cons.mp hc'.undotted
  have hpieces : pieces table first.toList rest = pieces table' first'.toList rest' := by
    rw [← List.splitOn_intercalate '.' (not_mem_pieces hfirst hrest) pieces_ne_nil,
      ← List.splitOn_intercalate '.' (not_mem_pieces hfirst' hrest') pieces_ne_nil,
      ← toList_text, ← toList_text, h]
  obtain ⟨rfl, hfirsts, rfl⟩ := pieces_injective htable htable' hpieces
  rw [String.toList_inj.mp hfirsts]
  exact ⟨rfl, rfl⟩

/-- The text of a column tells its table and the segments of its path, as they come out of any
dotted text, and a column is written behind a text without a change to it. -/
theorem rendering {c c' : Column} (hc : c.Segmented) (hc' : c'.Segmented)
    (htable : c.table ≤ 26) (htable' : c'.table ≤ 26) :
    (c.text = c'.text → c.table = c'.table ∧ c.segments = c'.segments) ∧
      (∀ out, c.appendTo out = out ++ c.text) ∧
      ∀ table path, (ofDotted table path).Segmented :=
  ⟨text_injective hc hc' htable htable', c.appendTo_eq, segmented_ofDotted⟩

/-- Segments may look like the parentheses and the letter of another path: `((a.(b).a).)` against
`(((a).b).a).)`. -/
theorem rendering_parenthesized :
    let c : Column := ⟨1, ["(b", "a", ")"]⟩
    let c' : Column := ⟨0, ["a", "b", "a", ")"]⟩
    c.text = "((a.(b).a).)" ∧ c'.text = "(((a).b).a).)" ∧
      (c.text = c'.text → c.table = c'.table ∧ c.segments = c'.segments) ∧
      c.appendTo "((" = "((((a.(b).a).)" := by
  intro c c'
  have hc : c.Segmented := ⟨by decide, by decide⟩
  have hc' : c'.Segmented := ⟨by decide, by decide⟩
  obtain ⟨hsame, hwritten, -⟩ := rendering hc hc' (by decide) (by decide)
  have htext : c.text = "((a.(b).a).)" := by decide
  refine ⟨htext, by decide, hsame, ?_⟩
  rw [hwritten, htext]
  decide

end Column

end FlagSelect
