import FlagSelect.Proofs.Plan

/-!
# Placeholders of texts that are put together

A question mark is a placeholder if it stands outside single quotes, so that what a text counts as
depends on the quotes in front of it. A text that closes all quotes it opens counts behind any other
such text as it does alone (`placeholderPlaces_piece`). The head of a statement has no question
marks and no quotes if the names in it have none (`Descriptor.Plain.head`).
-/

namespace FlagSelect

variable {quoted : Bool} {l l' : List Char} {s s' : String} {i j n n' : Nat}

/-- Where the placeholders of a text are, counted in characters from its start; `quoted` says on
which side of the quotes it starts. -/
def placeholderPlaces (quoted : Bool) : List Char → List Nat
  | [] => []
  | c :: l =>
    if c = '\'' then (placeholderPlaces (!quoted) l).map (· + 1)
    else if c = '?' ∧ quoted = false then 0 :: (placeholderPlaces quoted l).map (· + 1)
    else (placeholderPlaces quoted l).map (· + 1)

/-- On which side of the quotes a text ends. -/
def quotedAfter (quoted : Bool) (l : List Char) : Bool :=
  l.foldl (fun quoted c => if c = '\'' then !quoted else quoted) quoted

@[simp] theorem quotedAfter_cons {c : Char} :
    quotedAfter quoted (c :: l) = quotedAfter (if c = '\'' then !quoted else quoted) l := rfl

theorem length_placeholderPlaces :
    (placeholderPlaces quoted l).length = countPlaceholders quoted l := by
  induction l generalizing quoted with
  | nil => rfl
  | cons c l ih =>
      unfold placeholderPlaces countPlaceholders
      split
      · simp [ih]
      · split <;> simp [ih]

theorem placeholderPlaces_append : placeholderPlaces quoted (l ++ l') =
    placeholderPlaces quoted l ++
      (placeholderPlaces (quotedAfter quoted l) l').map (· + l.length) := by
  induction l generalizing quoted with
  | nil => simp [placeholderPlaces, quotedAfter]
  | cons c l ih =>
      have hshift (places : List Nat) :
          (places.map (· + l.length)).map (· + 1) = places.map (· + (c :: l).length) :=
        List.map_map
      rw [List.cons_append, placeholderPlaces, placeholderPlaces, quotedAfter_cons]
      split
      · rw [ih, List.map_append, hshift]
      · split
        · rw [ih, List.map_append, hshift, List.cons_append]
        · rw [ih, List.map_append, hshift]

/-- An even number of quotes leads back to the side that a text starts on. -/
theorem quotedAfter_eq :
    quotedAfter quoted l = if l.count '\'' % 2 = 0 then quoted else !quoted := by
  induction l generalizing quoted with
  | nil => rfl
  | cons c l ih =>
      rw [quotedAfter_cons, ih]
      by_cases hc : c = '\''
      · subst hc
        rw [if_pos rfl, List.count_cons_self]
        rcases Nat.mod_two_eq_zero_or_one (l.count '\'') with h | h
        · rw [if_pos h, if_neg (by omega)]
        · rw [if_neg (by omega), if_pos (by omega), Bool.not_not]
      · rw [if_neg hc, List.count_cons_of_ne hc]

/-! ## Pieces of a statement -/

/-- A text that closes all quotes it opens, and the number of its placeholders. -/
structure Offers (s : String) (n : Nat) : Prop where
  quotes : s.toList.count '\'' % 2 = 0
  count : countPlaceholders false s.toList = n

theorem Offers.quotedAfter (h : Offers s n) : quotedAfter quoted s.toList = quoted := by
  rw [quotedAfter_eq, if_pos h.quotes]

theorem Offers.append (h : Offers s n) (h' : Offers s' n') : Offers (s ++ s') (n + n') where
  quotes := by
    rw [String.toList_append, List.count_append, Nat.add_mod, h.quotes, h'.quotes]
  count := by
    rw [← length_placeholderPlaces, String.toList_append, placeholderPlaces_append, h.quotedAfter,
      List.length_append, List.length_map, length_placeholderPlaces, length_placeholderPlaces,
      h.count, h'.count]

/-- The placeholders of a piece of a statement come after those of the text before it, and stand
where they stand in the piece alone. -/
theorem placeholderPlaces_piece {before piece after : String} (hbefore : Offers before n)
    (hj : (placeholderPlaces false piece.toList)[j]? = some i) :
    (placeholderPlaces false (before ++ piece ++ after).toList)[n + j]? =
      some (before.length + i) := by
  have hlength : (placeholderPlaces false before.toList).length = n := by
    rw [length_placeholderPlaces, hbefore.count]
  have hpiece : (placeholderPlaces false (piece ++ after).toList)[j]? = some i := by
    obtain ⟨hlt, -⟩ := List.getElem?_eq_some_iff.mp hj
    rw [String.toList_append, placeholderPlaces_append, List.getElem?_append_left hlt, hj]
  rw [String.append_assoc, String.toList_append, placeholderPlaces_append, hbefore.quotedAfter,
    List.getElem?_append_right (hlength ▸ Nat.le_add_right n j), hlength, Nat.add_sub_cancel_left,
    List.getElem?_map, hpiece, Option.map_some, String.length_toList, Nat.add_comm]

/-! ## Texts without question marks and quotes -/

/-- Whether a text has neither question marks nor quotes. -/
def Unmarked (s : String) : Prop := ∀ c ∈ s.toList, c ≠ '?' ∧ c ≠ '\''

instance : Decidable (Unmarked s) :=
  List.decidableBAll (fun c => c ≠ '?' ∧ c ≠ '\'') s.toList

@[simp] theorem unmarked_append : Unmarked (s ++ s') ↔ Unmarked s ∧ Unmarked s' := by
  simp only [Unmarked, String.toList_append, List.mem_append, or_imp]
  exact forall_and

theorem Unmarked.join {texts : List String} (h : ∀ s ∈ texts, Unmarked s) :
    Unmarked (String.join texts) := by
  intro c hc
  rw [String.toList_join, List.mem_flatMap] at hc
  obtain ⟨s, hs, hc⟩ := hc
  exact h s hs c hc

theorem Unmarked.intercalate {texts : List String} (hs : Unmarked s)
    (h : ∀ t ∈ texts, Unmarked t) : Unmarked (s.intercalate texts) := by
  match texts with
  | [] => simp [Unmarked]
  | [t] => simpa using h t
  | t :: u :: texts =>
      have hrest := Unmarked.intercalate hs fun v hv => h v (List.mem_cons_of_mem t hv)
      rw [String.intercalate_cons_cons, unmarked_append, unmarked_append]
      exact ⟨⟨h t List.mem_cons_self, hs⟩, hrest⟩

theorem Unmarked.offers (h : Unmarked s) : Offers s 0 where
  quotes := by
    rw [List.count_eq_zero.mpr fun hc => (h _ hc).2 rfl]
  count := by
    unfold Unmarked at h
    generalize s.toList = l at h
    induction l with
    | nil => rfl
    | cons c l ih =>
        obtain ⟨hmark, hquote⟩ := h c List.mem_cons_self
        rw [countPlaceholders, if_neg hquote, if_neg fun h => hmark h.1]
        exact ih fun d hd => h d (List.mem_cons_of_mem c hd)

theorem unmarked_alias {table : Nat} {letter : Char} (h : alias? table = some letter) :
    Unmarked letter.toString := by
  have hall : ∀ n < 27, (alias? n).all (fun letter => Unmarked letter.toString) := by decide
  exact of_decide_eq_true ((Option.all_eq_true _ _).mp (hall table (lt_of_alias? h)) letter h)

theorem unmarked_qualifier {table : Nat} : Unmarked (qualifier table) := by
  unfold qualifier
  split
  next letter hletter => exact unmarked_append.mpr ⟨unmarked_alias hletter, by decide⟩
  next => decide

/-! ## The head of a statement -/

theorem Column.unmarked_text {c : Column} (h : ∀ s ∈ c.segments, Unmarked s) :
    Unmarked c.text := by
  unfold text
  split
  next => decide
  next first rest hsegments =>
    rw [hsegments] at h
    have hinner : Unmarked (qualifier c.table ++ first) := by
      simp [unmarked_qualifier, h first List.mem_cons_self]
    generalize qualifier c.table ++ first = inner at hinner
    replace h : ∀ s ∈ rest, Unmarked s := fun s hs => h s (List.mem_cons_of_mem first hs)
    clear hsegments
    induction rest generalizing inner with
    | nil => exact hinner
    | cons s rest ih =>
        refine ih (wrap inner s) ?_ fun t ht => h t (List.mem_cons_of_mem s ht)
        simp +decide [wrap, hinner, h s List.mem_cons_self]

namespace Descriptor

variable {d : Descriptor}

/-- Names and paths without question marks and quotes, and fragments that close all quotes they
open. -/
structure Plain (d : Descriptor) : Prop where
  tables : ∀ t ∈ d.tables, Unmarked t.name
  joins : ∀ t ∈ d.tables, ∀ on, t.join = some on → Unmarked on.primary ∧ Unmarked on.secondary
  projections : ∀ p ∈ d.projections, ∀ s ∈ p.column.segments, Unmarked s
  sort : ∀ c, d.paging.sort = some c → ∀ s ∈ c.segments, Unmarked s
  fragments : ∀ f ∈ d.filters, f.query.toList.count '\'' % 2 = 0

theorem Plain.joinText (h : d.Plain) {t : Table} (ht : t ∈ d.tables) {text : String}
    (htext : joinText? t = some text) : Unmarked text := by
  unfold joinText? at htext
  obtain ⟨letter, hletter, htext⟩ := Option.bind_eq_some_iff.mp htext
  obtain ⟨join, hjoin, htext⟩ := Option.bind_eq_some_iff.mp htext
  cases htext
  obtain ⟨symbol, hsymbol, hsame⟩ := Option.map_eq_some_iff.mp hletter
  have hletter : Unmarked letter := hsame ▸ unmarked_alias hsymbol
  obtain ⟨hprimary, hsecondary⟩ := h.joins t ht join hjoin
  simp +decide [h.tables t ht, hletter, unmarked_qualifier, hprimary, hsecondary]

theorem mem_of_mapM_ok {α β ε : Type} {f : α → Except ε β} {as : List α} {bs : List β}
    (h : as.mapM f = .ok bs) : ∀ b ∈ bs, ∃ a ∈ as, f a = .ok b := by
  induction as generalizing bs with
  | nil => cases h; simp
  | cons a as ih =>
      rw [List.mapM_cons] at h
      obtain ⟨b, hb, h⟩ := Directive.bind_eq_ok.mp h
      obtain ⟨rest, hrest, h⟩ := Directive.bind_eq_ok.mp h
      cases h
      intro c hc
      rcases List.mem_cons.mp hc with rfl | hc
      · exact ⟨a, List.mem_cons_self, hb⟩
      · obtain ⟨a', ha', hc⟩ := ih hrest c hc
        exact ⟨a', List.mem_cons_of_mem a ha', hc⟩

theorem Plain.head (h : d.Plain) {text : String} (htext : d.head = .ok text) :
    Unmarked text := by
  rw [Descriptor.head] at htext
  obtain ⟨joins, hjoins, htext⟩ := Directive.bind_eq_ok.mp htext
  cases htext
  have hcolumns : Unmarked (", ".intercalate (d.projections.map (·.column.text))) := by
    refine .intercalate (by decide) fun text ht => ?_
    obtain ⟨p, hp, rfl⟩ := List.mem_map.mp ht
    exact Column.unmarked_text (h.projections p hp)
  have hprimary : Unmarked d.primaryName := by
    unfold primaryName
    split
    next t _ htables => exact h.tables t (by simp [htables])
    next => decide
  have hjoin : Unmarked (String.join joins) := by
    refine .join fun text ht => ?_
    obtain ⟨t, ht, hok⟩ := mem_of_mapM_ok hjoins text ht
    split at hok
    next text hsome =>
      cases hok
      exact h.joinText (List.mem_of_mem_drop ht) hsome
    next => cases hok
  simp +decide [hcolumns, hprimary, hjoin]

end Descriptor

end FlagSelect
