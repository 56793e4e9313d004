import FlagSelect.Proofs.Directive.Exactness
import FlagSelect.Proofs.Directive.Skipping
import FlagSelect.Proofs.Directive.Storing

/-!
# Positions of faults

A fault with a position is about the text that stands there, and a directive that ends early has
been read to its end. Main statement: `Pass.compile_points`.
-/

namespace FlagSelect

variable {σ : Type} {scope : Scope σ}

namespace Directive

/-- What is shown of a text that goes on with no slot number: all digits in front, or else the first
character. -/
inductive Shown : List Char → List Char → Prop
  | digits {digits rest} : digits ≠ [] → (∀ c ∈ digits, c.isDigit = true) →
      (∀ c ∈ rest.head?, c.isDigit = false) → Shown (digits ++ rest) digits
  | character {c rest} : c.isDigit = false → Shown (c :: rest) [c]
  | nothing : Shown [] []

end Directive

/-- Whether a fault is about the place between two texts. Faults without a position are about no
place, but for an early end, which is only at the end. -/
def Fault.PointsAt (before rest : List Char) : Fault → Prop
  | .unexpectedChar position found _ =>
    position = (String.ofList before).utf8ByteSize ∧ rest.head? = some found
  | .strayTerminator position found =>
    position = (String.ofList before).utf8ByteSize ∧ rest.head? = some found
  | .storeOnVoid position =>
    position = (String.ofList before).utf8ByteSize ∧ rest.head? = some '>'
  | .invalidSlot position text =>
    position = (String.ofList before).utf8ByteSize ∧
      (before.getLast? = some '<' ∨ before.getLast? = some '>') ∧ Directive.Shown rest text.toList
  | .unexpectedEnd _ => rest = []
  | _ => True

namespace Directive

variable {s : Source σ} {directive before rest text l : List Char} {fault : Fault} {c : Char}

/-! ## Positions -/

theorem byteLength_append (before rest : List Char) :
    byteLength (before ++ rest) = byteLength before + byteLength rest := by
  have hfold (n : Nat) : rest.foldl (fun n c => n + c.utf8Size) n = n + byteLength rest := by
    unfold byteLength
    induction rest generalizing n with
    | nil => rfl
    | cons c rest ih =>
        rw [List.foldl_cons, List.foldl_cons, ih, ih (0 + c.utf8Size)]
        omega
  rw [byteLength, List.foldl_append, hfold]
  rfl

theorem utf8ByteSize_ofList : (String.ofList text).utf8ByteSize = byteLength text := by
  induction text with
  | nil => rfl
  | cons c text ih =>
      have happend : byteLength (c :: text) = byteLength [c] + byteLength text :=
        byteLength_append [c] text
      rw [String.ofList_cons, String.utf8ByteSize_append, String.utf8ByteSize_singleton, ih,
        happend]
      simp [byteLength]

theorem Source.position_eq (hs : s.length = byteLength directive)
    (hbefore : directive = before ++ rest) :
    s.position rest = (String.ofList before).utf8ByteSize := by
  rw [position, hs, hbefore, byteLength_append, Nat.add_sub_cancel, utf8ByteSize_ofList]

theorem Source.unexpected_pointsAt (hs : s.length = byteLength directive)
    (hbefore : directive = before ++ rest) (expected : Expectation) :
    (s.unexpected rest expected).PointsAt before rest := by
  cases rest with
  | nil => rfl
  | cons c l => exact ⟨s.position_eq hs hbefore, rfl⟩

/-! ## Slot numbers -/

theorem getLast?_before (h : c :: l <:+ directive) (hbefore : directive = before ++ l) :
    before.getLast? = some c := by
  obtain ⟨front, rfl⟩ := h
  have hsame : (front ++ [c]) ++ l = before ++ l := by
    rw [← hbefore, List.append_assoc]
    rfl
  rw [← List.append_cancel_right hsame, List.getLast?_append]
  rfl

theorem shown_takeWhile (h : l.takeWhile Char.isDigit ≠ []) :
    Shown l (l.takeWhile Char.isDigit) := by
  have hrest : ∀ c ∈ (l.dropWhile Char.isDigit).head?, c.isDigit = false := by
    intro c hc
    have hnot := List.head?_dropWhile_not Char.isDigit l
    rw [Option.mem_def.mp hc] at hnot
    exact hnot
  have hshown := Shown.digits h (fun c hc => List.mem_takeWhile_imp hc) hrest
  rwa [List.takeWhile_append_dropWhile] at hshown

theorem shown_take (h : l.takeWhile Char.isDigit = []) : Shown l (l.take 1) := by
  cases l with
  | nil => exact .nothing
  | cons c l =>
      rw [List.takeWhile_cons] at h
      split at h
      · cases h
      · next hc => exact .character (Bool.eq_false_iff.mpr hc)

theorem slot_eq_error {position : Nat} (h : slot position l = .error fault) :
    ∃ text, fault = .invalidSlot position text ∧ Shown l text.toList := by
  rw [slot] at h
  split at h
  · cases h
  · cases h
    refine ⟨_, rfl, ?_⟩
    rw [String.toList_ofList]
    split
    · next hnone => exact shown_take (List.isEmpty_iff.mp hnone)
    · next hsome => exact shown_takeWhile fun h => hsome (List.isEmpty_iff.mpr h)

theorem slot_pointsAt (hs : s.length = byteLength directive)
    (h : slot (s.position l) l = .error fault) (hc : c = '<' ∨ c = '>')
    (hsuffix : c :: l <:+ directive) (hbefore : directive = before ++ l) :
    fault.PointsAt before l := by
  obtain ⟨text, rfl, hshown⟩ := slot_eq_error h
  have hlast := getLast?_before hsuffix hbefore
  refine ⟨s.position_eq hs hbefore, ?_, hshown⟩
  rcases hc with rfl | rfl
  · exact .inl hlast
  · exact .inr hlast

/-! ## Members -/

variable {schema : Schema σ} {receiver : Ty} {name : String} {types : List Ty}

theorem members_pointsAt (h : members schema receiver = .error fault) :
    fault.PointsAt before rest := by
  unfold members at h
  split at h
  · split at h <;> cases h
    trivial
  all_goals cases h

theorem field_pointsAt (h : field schema receiver name = .error fault) :
    fault.PointsAt before rest := by
  rcases bind_eq_error.mp h with h | ⟨found, -, h⟩
  · exact members_pointsAt h
  · split at h <;> cases h
    trivial

theorem overload_pointsAt (h : overload schema receiver name types = .error fault) :
    fault.PointsAt before rest := by
  rcases bind_eq_error.mp h with h | ⟨found, -, h⟩
  · exact members_pointsAt h
  · cases found with
    | none => cases h; trivial
    | some t =>
        dsimp only at h
        split at h
        · cases h
          trivial
        · split at h <;> cases h
          trivial

/-! ## Readers -/

theorem Next.text_suffix {call call' : Call} (h : Next scope call call') :
    call'.text <:+ call.text := by
  cases h with
  | start hskip _ _ => exact hskip ▸ skipBlanks_suffix
  | started hstarts => exact hstarts.stores.rest.trans skipBlanks_suffix
  | pending hskip hi _ => exact hi.suffix_cons.trans (suffix_of_skipBlanks hskip)
  | select hskip hname =>
      exact (name?_suffix hname).trans (skipBlanks_suffix.trans (suffix_of_skipBlanks hskip))
  | selected hskip hname hselects =>
      exact hselects.stores.rest.trans
        ((name?_suffix hname).trans (skipBlanks_suffix.trans (suffix_of_skipBlanks hskip)))
  | stored hskip hi => exact hi.suffix.trans (suffix_of_skipBlanks hskip)
  | group => exact List.suffix_cons _ _
  | record hname => exact name?_suffix hname
  | call => exact skipBlanks_suffix.trans (List.suffix_cons _ _)
  | several _ => exact List.suffix_refl _
  | argument => exact List.suffix_refl _
  | more hreads hrest => exact (hrest ▸ List.suffix_cons _ _).trans hreads.stores.rest

theorem Raises.rest_suffix {call : Call} {halt : Halt} (h : Raises s call halt) :
    halt.rest <:+ call.text := by
  cases h with
  | unclosed _ _ => exact List.nil_suffix
  | terminator hskip _ => exact hskip ▸ skipBlanks_suffix
  | comma hskip => exact hskip ▸ skipBlanks_suffix
  | empty hskip _ => exact hskip ▸ skipBlanks_suffix
  | nameless hskip _ => exact skipBlanks_suffix.trans (suffix_of_skipBlanks hskip)
  | store hskip _ => exact suffix_of_skipBlanks hskip
  | question hskip => exact hskip ▸ skipBlanks_suffix
  | other hskip _ _ _ _ _ => exact hskip ▸ skipBlanks_suffix
  | load _ => exact List.suffix_cons _ _
  | unset hi _ _ => exact hi.suffix.trans (List.suffix_cons _ _)
  | side _ => exact List.suffix_refl _
  | group _ _ => exact List.nil_suffix
  | void => exact List.suffix_refl _
  | literal _ _ => exact List.suffix_refl _
  | start _ _ _ _ _ _ => exact List.suffix_refl _
  | call htakes _ =>
      exact htakes.stores.rest.trans (skipBlanks_suffix.trans (List.suffix_cons _ _))
  | mark => exact List.suffix_refl _
  | field _ _ _ => exact List.suffix_refl _
  | argument _ _ => exact List.nil_suffix

theorem Raises.pointsAt {call : Call} {halt : Halt} (h : Raises s call halt)
    (hs : s.length = byteLength directive) (hsuffix : call.text <:+ directive)
    (hbefore : directive = before ++ halt.rest) : halt.fault.PointsAt before halt.rest := by
  cases h with
  | unclosed _ _ => rfl
  | terminator _ _ => exact ⟨s.position_eq hs hbefore, rfl⟩
  | comma _ => exact s.unexpected_pointsAt hs hbefore _
  | empty _ _ => exact s.unexpected_pointsAt hs hbefore _
  | nameless _ _ => exact s.unexpected_pointsAt hs hbefore _
  | store hskip hslot =>
      exact slot_pointsAt hs hslot (.inr rfl) ((hskip ▸ skipBlanks_suffix).trans hsuffix) hbefore
  | question _ => exact s.unexpected_pointsAt hs hbefore _
  | other _ _ _ _ _ _ => exact s.unexpected_pointsAt hs hbefore _
  | load hslot => exact slot_pointsAt hs hslot (.inl rfl) hsuffix hbefore
  | unset _ _ _ => trivial
  | side _ => trivial
  | group _ _ => rfl
  | void => exact ⟨s.position_eq hs hbefore, rfl⟩
  | literal _ _ => exact s.unexpected_pointsAt hs hbefore _
  | start _ _ _ _ _ _ => exact s.unexpected_pointsAt hs hbefore _
  | call _ hoverload => exact overload_pointsAt hoverload
  | mark => exact s.unexpected_pointsAt hs hbefore _
  | field _ _ hfield => exact field_pointsAt hfield
  | argument _ _ => rfl

theorem Halts.pointsAt {call : Call} {halt : Halt} (h : Halts s call halt)
    (hs : s.length = byteLength directive) (hsuffix : call.text <:+ directive) :
    ∃ before, directive = before ++ halt.rest ∧ halt.fault.PointsAt before halt.rest := by
  induction h with
  | raise hraises =>
      obtain ⟨before, hbefore⟩ := hraises.rest_suffix.trans hsuffix
      exact ⟨before, hbefore.symm, hraises.pointsAt hs hsuffix hbefore.symm⟩
  | next hnext _ ih => exact ih (hnext.text_suffix.trans hsuffix)

end Directive

/-- A fault is about the place in the directive where a reader gives up. -/
theorem Pass.compile_points {pass pass' : Pass} {directive : String} {fault : Fault}
    (h : pass.compile scope directive = .error (fault, pass')) :
    (Text.allBlank directive = true ∧ fault = .empty ∧ pass' = pass) ∨
    ∃ before rest, directive.toList = before ++ rest ∧
      Directive.Halts ⟨scope, directive.utf8ByteSize⟩
        ⟨.expression .top none, pass, directive.toList⟩ ⟨fault, pass', rest⟩ ∧
      fault.PointsAt before rest := by
  have hfails := compile_error_iff.mp h
  split at hfails
  · next hblank => exact .inl ⟨hblank, hfails⟩
  · obtain ⟨rest, hrest⟩ := hfails
    obtain ⟨before, hbefore, hpoints⟩ := hrest.pointsAt rfl (List.suffix_refl _)
    rw [← Directive.utf8ByteSize_ofList, String.ofList_toList] at hrest
    exact .inr ⟨before, rest, hbefore, hrest, hpoints⟩

/-- An accent behind another one, which counts for two bytes. -/
theorem Pass.compile_points_accent :
    (Directive.knowing 0 .any).compile Directive.bareSource.scope "(<0?é)é" =
      .error (.unexpectedChar 7 'é' .suffix, Directive.knowing 0 .any) ∧
    ∃ before rest, "(<0?é)é".toList = before ++ rest ∧
      (Fault.unexpectedChar 7 'é' .suffix).PointsAt before rest := by
  have htext : "(<0?é)é".toList = ['(', '<', '0', '?', 'é', ')', 'é'] := by decide +kernel
  have h : (Directive.knowing 0 .any).compile Directive.bareSource.scope "(<0?é)é" =
      .error (.unexpectedChar 7 'é' .suffix, Directive.knowing 0 .any) := by
    rw [compile, if_neg (by decide +kernel), htext]
    rfl
  refine ⟨h, ?_⟩
  rcases compile_points h with ⟨-, hfault, -⟩ | ⟨before, rest, hbefore, -, hpoints⟩
  · cases hfault
  · exact ⟨before, rest, hbefore, hpoints⟩

end FlagSelect
