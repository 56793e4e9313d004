import FlagSelect.Statement.Executor
import Mathlib.Logic.Function.Basic
import Mathlib.Logic.Relation

/-!
# A ledger of statements

`Ledger δ` is a driver that passes every call on to the driver below it and writes down those that
concern a statement. `Books` is what remains of the executors beside such a ledger: which of them
has which statement open. Whatever an executor does amounts to `Tick`s, and books that start empty
stay `Sound` under them: no statement is used or closed after its close, and no executor opens a
second one beside the first.
-/

namespace FlagSelect

/-- What a statement is used for while it is open. -/
inductive Use where
  | bind | execute | read | interrupt
deriving DecidableEq

inductive Deed where
  | prepare
  | use (u : Use)
  | close
deriving DecidableEq

/-- One call of the driver that concerns a statement. -/
structure Entry where
  statement : Nat
  deed : Deed
deriving DecidableEq

/-- Whether a statement has been prepared and not been closed. -/
def IsOpen (entries : List Entry) (n : Nat) : Prop :=
  ⟨n, .prepare⟩ ∈ entries ∧ ⟨n, .close⟩ ∉ entries

/-- Whether a call is in order after those before it: a statement is prepared under a new number,
and used or closed only while it is open. -/
def Entry.Lawful (e : Entry) (before : List Entry) : Prop :=
  match e.deed with
  | .prepare => ∀ b ∈ before, b.statement ≠ e.statement
  | .use _ | .close => IsOpen before e.statement

/-- A driver with state `δ` whose calls are written down. -/
structure Ledger (δ : Type) where
  driver : δ
  /-- The calls so far, the latest first. A close that fails is a close. -/
  entries : List Entry := []
  /-- The number of the next statement. -/
  next : Nat := 0

namespace Ledger

/-- A statement of the driver below, and its number. -/
structure Numbered (δ : Type) [Driver δ] where
  number : Nat
  statement : Driver.Statement δ

variable {δ α : Type} [Driver δ]

/-- Passes a call for a statement on and writes it down, whatever comes of it. -/
def call (l : Ledger δ) (n : Nat) (deed : Deed) (f : δ → α × δ) : α × Ledger δ :=
  ((f l.driver).1, { l with driver := (f l.driver).2, entries := ⟨n, deed⟩ :: l.entries })

instance : Driver (Ledger δ) where
  Statement := Numbered δ
  Row := Driver.Row δ
  acquire l := ((Driver.acquire l.driver).1, { l with driver := (Driver.acquire l.driver).2 })
  prepare sql l :=
    match Driver.prepare sql l.driver with
    | (.error fault, d) => (.error fault, { l with driver := d })
    | (.ok s, d) => (.ok ⟨l.next, s⟩, ⟨d, ⟨l.next, .prepare⟩ :: l.entries, l.next + 1⟩)
  bind s index setter v l := l.call s.number (.use .bind) (Driver.bind s.statement index setter v)
  execute s l := l.call s.number (.use .execute) (Driver.execute s.statement)
  read s row column getter l :=
    l.call s.number (.use .read) (Driver.read s.statement row column getter)
  interrupt s fault l := l.call s.number (.use .interrupt) (Driver.interrupt s.statement fault)
  close s l := l.call s.number .close (Driver.close s.statement)

end Ledger

/-- The world as it is when a ledger is begun. -/
def World.beginLedger {σ δ : Type} (w : World σ δ) : World σ (Ledger δ) :=
  ⟨w.host, ⟨w.driver, [], 0⟩, w.profile⟩

/-! ## Open statements -/

theorem isOpen_cons_prepare {entries : List Entry} {m n : Nat} (h : ⟨m, .close⟩ ∉ entries) :
    IsOpen (⟨m, .prepare⟩ :: entries) n ↔ n = m ∨ IsOpen entries n := by
  simp only [IsOpen, List.mem_cons, Entry.mk.injEq, and_true, reduceCtorEq, and_false, false_or]
  constructor
  · rintro ⟨rfl | hn, hc⟩
    · exact .inl rfl
    · exact .inr ⟨hn, hc⟩
  · rintro (rfl | ⟨hn, hc⟩)
    · exact ⟨.inl rfl, h⟩
    · exact ⟨.inr hn, hc⟩

theorem isOpen_cons_use {entries : List Entry} {m n : Nat} {u : Use} :
    IsOpen (⟨m, .use u⟩ :: entries) n ↔ IsOpen entries n := by
  simp [IsOpen]

theorem isOpen_cons_close {entries : List Entry} {m n : Nat} :
    IsOpen (⟨m, .close⟩ :: entries) n ↔ n ≠ m ∧ IsOpen entries n := by
  simp [IsOpen, and_left_comm]

/-! ## Books -/

/-- The open statement of each executor, by the executor's number, beside a ledger. -/
structure Books where
  opens : Nat → Option Nat
  entries : List Entry
  next : Nat

/-- One entry in the books. A statement is prepared for an executor that has none open, and used or
closed by the executor that has it open. -/
inductive Tick : Books → Books → Prop where
  | prepare {b : Books} {k : Nat} : b.opens k = none →
      Tick b ⟨Function.update b.opens k (some b.next), ⟨b.next, .prepare⟩ :: b.entries, b.next + 1⟩
  | use {b : Books} {k n : Nat} (u : Use) : b.opens k = some n →
      Tick b { b with entries := ⟨n, .use u⟩ :: b.entries }
  | close {b : Books} {k n : Nat} : b.opens k = some n →
      Tick b { b with opens := Function.update b.opens k none, entries := ⟨n, .close⟩ :: b.entries }

/-- Any number of entries. -/
abbrev Ticks : Books → Books → Prop := Relation.ReflTransGen Tick

theorem Ticks.trans {a b c : Books} (h₁ : Ticks a b) (h₂ : Ticks b c) : Ticks a c :=
  Relation.ReflTransGen.trans h₁ h₂

/-- Books in order, where `owner` says for which executor each statement was prepared. -/
structure Books.Sound (owner : Nat → Nat) (b : Books) : Prop where
  lawful : ∀ later e before, b.entries = later ++ e :: before → e.Lawful before
  fresh : ∀ e ∈ b.entries, e.statement < b.next
  opened : ∀ k n, b.opens k = some n → IsOpen b.entries n ∧ owner n = k
  owned : ∀ n, IsOpen b.entries n → b.opens (owner n) = some n
  exclusive : ∀ later before, b.entries = later ++ before →
    ∀ m n, IsOpen before m → IsOpen before n → owner m = owner n → m = n

namespace Books

theorem sound_empty : Sound id ⟨fun _ => none, [], 0⟩ where
  lawful later e before h := by simp at h
  fresh e he := by simp at he
  opened k n h := by simp at h
  owned n h := by simp [IsOpen] at h
  exclusive later before h m n hm := by
    obtain ⟨-, rfl⟩ := List.append_eq_nil_iff.mp h.symm
    simp [IsOpen] at hm

variable {owner : Nat → Nat} {b b' : Books}

theorem Sound.not_mem_of_next_le (h : b.Sound owner) {e : Entry} (he : b.next ≤ e.statement) :
    e ∉ b.entries := by
  intro hmem
  have := h.fresh e hmem
  omega

/-- What one entry adds to sound books, besides what it does to the open statements. -/
theorem Sound.cons (h : b.Sound owner) {opens : Nat → Option Nat} {e : Entry} {next : Nat}
    {owner' : Nat → Nat} (hlaw : e.Lawful b.entries) (hfresh : e.statement < next)
    (hnext : b.next ≤ next) (hold : ∀ n < b.next, owner' n = owner n)
    (hopened : ∀ k n, opens k = some n → IsOpen (e :: b.entries) n ∧ owner' n = k)
    (howned : ∀ n, IsOpen (e :: b.entries) n → opens (owner' n) = some n) :
    Sound owner' ⟨opens, e :: b.entries, next⟩ where
  lawful later f before hsplit := by
    cases later with
    | nil =>
        obtain ⟨rfl, rfl⟩ := List.cons.inj hsplit
        exact hlaw
    | cons g later => exact h.lawful later f before (List.cons.inj hsplit).2
  fresh f hf := by
    rcases List.mem_cons.mp hf with rfl | hf
    · exact hfresh
    · exact Nat.lt_of_lt_of_le (h.fresh f hf) hnext
  opened := hopened
  owned := howned
  exclusive later before hsplit m n hm hn hmn := by
    cases later with
    | nil =>
        obtain rfl : e :: b.entries = before := hsplit
        have hom := howned m hm
        rw [hmn, howned n hn] at hom
        exact (Option.some.inj hom).symm
    | cons g later =>
        have hsplit' : b.entries = later ++ before := (List.cons.inj hsplit).2
        have hlt {i : Nat} (hi : IsOpen before i) : i < b.next :=
          h.fresh _ (hsplit' ▸ List.mem_append_right later hi.1)
        rw [hold m (hlt hm), hold n (hlt hn)] at hmn
        exact h.exclusive later before hsplit' m n hm hn hmn

theorem Sound.tick (h : b.Sound owner) (ht : Tick b b') :
    b.next ≤ b'.next ∧ ∃ owner', (∀ n < b.next, owner' n = owner n) ∧ b'.Sound owner' := by
  cases ht with
  | @prepare k hk =>
      refine ⟨Nat.le_succ _, Function.update owner b.next k, ?_, ?_⟩
      · intro n hn
        exact Function.update_of_ne (Nat.ne_of_lt hn) _ _
      · have hopen {n : Nat} := isOpen_cons_prepare (n := n) (h.not_mem_of_next_le (Nat.le_refl _))
        have hne {n : Nat} (hn : IsOpen b.entries n) : n ≠ b.next :=
          Nat.ne_of_lt (h.fresh _ hn.1)
        refine h.cons ?_ (Nat.lt_succ_self _) (Nat.le_succ _) ?_ ?_ ?_
        · intro e he
          exact Nat.ne_of_lt (h.fresh e he)
        · intro n hn
          exact Function.update_of_ne (Nat.ne_of_lt hn) _ _
        · intro j n hj
          by_cases hjk : j = k
          · subst hjk
            obtain rfl : b.next = n := by simpa using hj
            exact ⟨hopen.mpr (.inl rfl), Function.update_self ..⟩
          · rw [Function.update_of_ne hjk] at hj
            obtain ⟨hn, hown⟩ := h.opened j n hj
            exact ⟨hopen.mpr (.inr hn), by rw [Function.update_of_ne (hne hn), hown]⟩
        · intro n hn
          rcases hopen.mp hn with rfl | hn
          · rw [Function.update_self, Function.update_self]
          · have hnk : owner n ≠ k := by
              rintro rfl
              have := h.owned n hn
              rw [hk] at this
              cases this
            rw [Function.update_of_ne (hne hn), Function.update_of_ne hnk, h.owned n hn]
  | @use k n u hk =>
      obtain ⟨hn, -⟩ := h.opened k n hk
      have hlt : n < b.next := h.fresh _ hn.1
      refine ⟨Nat.le_refl _, owner, fun _ _ => rfl, ?_⟩
      refine h.cons hn hlt (Nat.le_refl _) (fun _ _ => rfl) ?_ ?_
      · intro j m hj
        obtain ⟨hm, hown⟩ := h.opened j m hj
        exact ⟨isOpen_cons_use.mpr hm, hown⟩
      · intro m hm
        exact h.owned m (isOpen_cons_use.mp hm)
  | @close k n hk =>
      obtain ⟨hn, hown⟩ := h.opened k n hk
      have hlt : n < b.next := h.fresh _ hn.1
      refine ⟨Nat.le_refl _, owner, fun _ _ => rfl, ?_⟩
      refine h.cons hn hlt (Nat.le_refl _) (fun _ _ => rfl) ?_ ?_
      · intro j m hj
        by_cases hjk : j = k
        · simp [hjk] at hj
        · rw [Function.update_of_ne hjk] at hj
          obtain ⟨hm, hown'⟩ := h.opened j m hj
          refine ⟨isOpen_cons_close.mpr ⟨?_, hm⟩, hown'⟩
          rintro rfl
          exact hjk (hown'.symm.trans hown)
      · intro m hm
        obtain ⟨hmn, hm⟩ := isOpen_cons_close.mp hm
        have hmk : owner m ≠ k := by
          rintro rfl
          have := h.owned m hm
          rw [hk] at this
          exact hmn (Option.some.inj this).symm
        rw [Function.update_of_ne hmk, h.owned m hm]

/-- Sound books stay sound, and what is known about owners stays known. -/
theorem Sound.ticks (h : b.Sound owner) (ht : Ticks b b') :
    b.next ≤ b'.next ∧ ∃ owner', (∀ n < b.next, owner' n = owner n) ∧ b'.Sound owner' := by
  induction ht with
  | refl => exact ⟨Nat.le_refl _, owner, fun _ _ => rfl, h⟩
  | tail _ htick ih =>
      obtain ⟨hle, owner₁, hold₁, h₁⟩ := ih
      obtain ⟨hle', owner₂, hold₂, h₂⟩ := h₁.tick htick
      refine ⟨Nat.le_trans hle hle', owner₂, ?_, h₂⟩
      intro n hn
      rw [hold₂ n (Nat.lt_of_lt_of_le hn hle), hold₁ n hn]

/-- Who will own later statements does not matter. -/
theorem Sound.congr (h : b.Sound owner) {owner' : Nat → Nat}
    (hold : ∀ n < b.next, owner' n = owner n) : b.Sound owner' where
  lawful := h.lawful
  fresh := h.fresh
  opened k n hk := by
    obtain ⟨hn, hown⟩ := h.opened k n hk
    exact ⟨hn, (hold n (h.fresh _ hn.1)).trans hown⟩
  owned n hn := by
    rw [hold n (h.fresh _ hn.1)]
    exact h.owned n hn
  exclusive later before hsplit m n hm hn hmn := by
    have hlt {i : Nat} (hi : IsOpen before i) : i < b.next :=
      h.fresh _ (hsplit ▸ List.mem_append_right later hi.1)
    rw [hold m (hlt hm), hold n (hlt hn)] at hmn
    exact h.exclusive later before hsplit m n hm hn hmn

/-- Nothing befalls a statement after its close. -/
theorem Sound.closed_for_good (h : b.Sound owner) {later before : List Entry} {n : Nat}
    (hsplit : b.entries = later ++ ⟨n, .close⟩ :: before) : ∀ e ∈ later, e.statement ≠ n := by
  rintro e he rfl
  obtain ⟨last, first, rfl⟩ := List.append_of_mem he
  have hlaw := h.lawful last e (first ++ ⟨e.statement, .close⟩ :: before) (by simp [hsplit])
  obtain ⟨n, deed⟩ := e
  cases deed with
  | prepare => exact hlaw ⟨n, .close⟩ (by simp) rfl
  | use _ => exact hlaw.2 (by simp)
  | close => exact hlaw.2 (by simp)

theorem Sound.count_close_le (h : b.Sound owner) (n : Nat) : b.entries.count ⟨n, .close⟩ ≤ 1 := by
  by_cases hmem : ⟨n, .close⟩ ∈ b.entries
  · obtain ⟨later, before, hsplit⟩ := List.append_of_mem hmem
    have hlater : later.count ⟨n, .close⟩ = 0 :=
      List.count_eq_zero.mpr fun hl => h.closed_for_good hsplit _ hl rfl
    have hbefore : before.count ⟨n, .close⟩ = 0 :=
      List.count_eq_zero.mpr (h.lawful later ⟨n, .close⟩ before hsplit).2
    rw [hsplit, List.count_append, List.count_cons_self]
    omega
  · rw [List.count_eq_zero.mpr hmem]
    exact Nat.zero_le _

/-- Once no executor has a statement open, every statement that was prepared is closed. -/
theorem Sound.count_close_eq (h : b.Sound owner) (hnone : ∀ k, b.opens k = none) {n : Nat}
    (hn : ⟨n, .prepare⟩ ∈ b.entries) : b.entries.count ⟨n, .close⟩ = 1 := by
  have hmem : ⟨n, .close⟩ ∈ b.entries := by
    by_contra hc
    have := h.owned n ⟨hn, hc⟩
    rw [hnone] at this
    cases this
  exact Nat.le_antisymm (h.count_close_le n) (List.count_pos_iff.mpr hmem)

end Books

end FlagSelect
