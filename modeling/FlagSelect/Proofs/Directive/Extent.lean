import FlagSelect.Proofs.Directive.Reading
import Mathlib.Data.List.TakeWhile

/-!
# The extent of readings

A reading leaves no longer a text than it was given, and every part that stands for something is at
least one character long. Main statement: `Reads.length_le`.
-/

namespace FlagSelect.Directive

variable {σ : Type} {scope : Scope σ} {l rest : List Char} {i : Slot} {name : String}

theorem length_lt_of_skipBlanks {text : List Char} {c : Char} (h : skipBlanks text = c :: l) :
    l.length < text.length := by
  have hle := List.length_dropWhile_le Text.isAsciiBlank text
  rw [← skipBlanks, h] at hle
  exact hle

theorem Numeral.length_le (h : Numeral l i rest) : rest.length ≤ l.length := by
  rw [← h.2]
  exact List.length_dropWhile_le _ l

theorem not_isDigit_of_isNameStart {c : Char} (h : isNameStart c = true) : c.isDigit = false := by
  simp only [isNameStart, Bool.or_eq_true, beq_iff_eq] at h
  rcases h with h | rfl
  · have hletter : c.isUpper = true ∨ c.isLower = true := Bool.or_eq_true_iff.mp h
    have hupper (h : c.isUpper = true) : 65 ≤ c.val.toNat := (of_decide_eq_true h).1
    have hlower (h : c.isLower = true) : 97 ≤ c.val.toNat :=
      of_decide_eq_true (Bool.and_eq_true_iff.mp h).1
    have hdigit (h : c.isDigit = true) : c.val.toNat ≤ 57 :=
      of_decide_eq_true (Bool.and_eq_true_iff.mp h).2
    by_contra hc
    have hle := hdigit (by simpa using hc)
    rcases hletter with h | h
    · have hge := hupper h
      omega
    · have hge := hlower h
      omega
  · rfl

theorem name?_cons {text : List Char} (h : name? text = some (name, rest)) :
    ∃ c l, text = c :: l ∧ isNameStart c = true := by
  unfold name? at h
  split at h
  · cases h
  · next c l =>
      split at h
      · next hc => exact ⟨c, l, rfl, hc⟩
      · cases h

theorem name?_length_lt (h : name? l = some (name, rest)) : rest.length < l.length := by
  unfold name? at h
  split at h
  · cases h
  split at h
  · cases h
    exact Nat.lt_succ_of_le (List.length_dropWhile_le _ _)
  · cases h

theorem length_skipBalanced_le {atComma : Bool} {depth : Nat} :
    (skipBalanced atComma depth l).length ≤ l.length := by
  induction l generalizing depth with
  | nil => exact Nat.le_refl 0
  | cons c l ih =>
      unfold skipBalanced
      split
      · exact Nat.le_succ_of_le ih
      split
      · cases depth with
        | zero => exact Nat.le_refl _
        | succ depth => exact Nat.le_succ_of_le ih
      split
      · exact Nat.le_refl _
      · exact Nat.le_succ_of_le ih

theorem length_skipRest_le {place : Place} : (skipRest place l).length ≤ l.length := by
  cases place with
  | top => exact Nat.zero_le _
  | argument => exact length_skipBalanced_le
  | group => exact length_skipBalanced_le

mutual

theorem Reads.length_le {place ctx pass text part} (h : Reads scope place ctx pass text part) :
    part.rest.length ≤ text.length := by
  match h with
  | .finish _ => exact List.length_dropWhile_le _ text
  | .value hstart htail =>
      have hlt := Nat.lt_of_lt_of_le hstart.length_lt (List.length_dropWhile_le _ text)
      exact Nat.le_trans htail.length_le (Nat.le_of_lt hlt)
  | .reused hl hi _ =>
      have hrest := Nat.le_of_succ_le hi.length_le
      exact Nat.le_trans length_skipRest_le
        (Nat.le_trans hrest (Nat.le_of_lt (length_lt_of_skipBlanks hl)))
  | .pending hl hi _ hpart =>
      have hrest := Nat.le_of_succ_le hi.length_le
      exact Nat.le_trans hpart.length_le
        (Nat.le_trans hrest (Nat.le_of_lt (length_lt_of_skipBlanks hl)))
  | .select hl hname hhead htail =>
      have hrest := Nat.lt_of_lt_of_le (name?_length_lt hname) (List.length_dropWhile_le _ _)
      have hhead := hhead.length_le
      have htail := htail.length_le
      have hl := length_lt_of_skipBlanks hl
      exact Nat.le_of_lt (Nat.lt_of_le_of_lt (Nat.le_trans htail hhead) (Nat.lt_trans hrest hl))
  | .store hl hi htail =>
      exact Nat.le_trans htail.length_le
        (Nat.le_trans hi.length_le (Nat.le_of_lt (length_lt_of_skipBlanks hl)))

theorem Starts.length_lt {pass text part} (h : Starts scope pass text part) :
    part.rest.length < text.length := by
  match h with
  | .load hi _ _ => exact Nat.lt_succ_of_le hi.length_le
  | .side _ => exact Nat.lt_succ_self _
  | .group hpart hrest =>
      have hle := hpart.length_le
      rw [hrest] at hle
      exact Nat.lt_succ_of_lt hle
  | .literal hdigit _ =>
      rw [List.dropWhile_cons_of_pos hdigit]
      exact Nat.lt_succ_of_le (List.length_dropWhile_le _ _)
  | .member hname hpart => exact Nat.lt_of_le_of_lt hpart.length_le (name?_length_lt hname)

theorem Selects.length_le {receiver name pass text part}
    (h : Selects scope receiver name pass text part) : part.rest.length ≤ text.length := by
  match h with
  | .call hargs _ =>
      have hlt := Nat.lt_of_lt_of_le hargs.length_lt (List.length_dropWhile_le _ _)
      exact Nat.le_of_lt (Nat.lt_succ_of_lt hlt)
  | .field _ _ _ => exact Nat.le_refl _

theorem Takes.length_lt {pass text args} (h : Takes scope pass text args) :
    args.rest.length < text.length := by
  match h with
  | .nothing => exact Nat.lt_succ_self _
  | .several _ hargs => exact hargs.length_lt

theorem TakesMore.length_lt {pass text args} (h : TakesMore scope pass text args) :
    args.rest.length < text.length := by
  match h with
  | .more hpart hrest hargs =>
      have hle := hpart.length_le
      rw [hrest] at hle
      exact Nat.lt_trans hargs.length_lt hle
  | .last hpart hrest =>
      have hle := hpart.length_le
      rw [hrest] at hle
      exact hle

end

theorem skipBalanced_eq (atComma : Bool) (depth : Nat) (text : List Char) :
    skipBalanced atComma depth text = [] ∨
      (∃ l, skipBalanced atComma depth text = ')' :: l) ∨
      atComma = true ∧ ∃ l, skipBalanced atComma depth text = ',' :: l := by
  induction text generalizing depth with
  | nil => exact .inl rfl
  | cons c l ih =>
      unfold skipBalanced
      split
      · exact ih _
      split
      · next hc =>
          subst hc
          cases depth with
          | zero => exact .inr (.inl ⟨l, rfl⟩)
          | succ depth => exact ih _
      split
      · next hc =>
          obtain ⟨rfl, -, hcomma⟩ := hc
          exact .inr (.inr ⟨hcomma, l, rfl⟩)
      · exact ih _

theorem skipRest_ends {place : Place} {text : List Char} :
    skipRest place text = [] ∨ Ends place (skipRest place text) := by
  cases place with
  | top => exact .inl rfl
  | argument =>
      rcases skipBalanced_eq true 0 text with hnil | ⟨l, hl⟩ | ⟨-, l, hl⟩
      · exact .inl hnil
      · exact .inr ⟨')', l, hl, .inr rfl⟩
      · exact .inr ⟨',', l, hl, .inl rfl⟩
  | group =>
      rcases skipBalanced_eq false 0 text with hnil | ⟨l, hl⟩ | ⟨hcomma, -⟩
      · exact .inl hnil
      · exact .inr ⟨l, hl⟩
      · cases hcomma

/-- An expression ends where it may, or with the text. -/
theorem Reads.ends {place ctx pass text} {part : Part σ}
    (h : Reads scope place ctx pass text part) : part.rest = [] ∨ Ends place part.rest := by
  match h with
  | .finish hends => exact .inr hends
  | .value _ htail => exact htail.ends
  | .reused _ _ _ => exact skipRest_ends
  | .pending _ _ _ hpart => exact hpart.ends
  | .select _ _ _ htail => exact htail.ends
  | .store _ _ htail => exact htail.ends

theorem Reads.rest_of_top {place ctx pass text part} (h : Reads scope place ctx pass text part)
    (hplace : place = .top) : part.rest = [] := by
  subst hplace
  exact h.ends.elim id id

end FlagSelect.Directive
