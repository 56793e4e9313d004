import FlagSelect.Proofs.Directive.Sequence

/-!
# Recorded runs

What can be seen of programs, and programs whose host writes down every call of a getter or a
method. Apart from that these run as the programs themselves. Main statement:
`Machine.observeEach_recorded`.
-/

namespace FlagSelect

variable {σ α β γ : Type}

/-- The machine where code stops, or at its end. -/
def Machine.reached (roots : Roots) (m : Machine σ) : List (Instr σ) → Machine σ
  | [] => m
  | i :: code =>
    match m.step roots i with
    | .ok m => m.reached roots code
    | .error _ => m

/-- What can be seen of a program: what it comes to, and the slots and the host then. -/
structure Observation (σ : Type) where
  outcome : Except EvalFault Value
  slots : Slot → Option Value
  host : σ

/-- What can be seen of programs in order on one machine, up to the first that stops. -/
def Machine.observeEach (roots : Roots) (m : Machine σ) : List (Program σ) → List (Observation σ)
  | [] => []
  | p :: rest =>
    match m.eval roots p with
    | .ok (v, m') => ⟨.ok v, m'.locals.get?, m'.host⟩ :: m'.observeEach roots rest
    | .error (fault, host) =>
      [⟨.error fault, (reached roots { m with stack := [] } p.code).locals.get?, host⟩]

/-- A call of the host, with the receiver and the arguments. -/
inductive HostCall (σ : Type) where
  | get (field : Field σ) (o : Object)
  | call (method : Method σ) (o : Object) (args : List Value)

/-- A host, and the calls of it in their order. -/
structure Recorder (σ : Type) where
  host : σ
  calls : List (HostCall σ) := []

def Recorder.record (r : Recorder σ) (call : HostCall σ) (host : σ) : Recorder σ :=
  ⟨host, r.calls ++ [call]⟩

def Field.recorded (f : Field σ) : Field (Recorder σ) where
  name := f.name
  ty := f.ty
  hostClass := f.hostClass
  get o r := ((f.get o r.host).1, r.record (.get f o) (f.get o r.host).2)

def Method.recorded (m : Method σ) : Method (Recorder σ) where
  name := m.name
  params := m.params
  result := m.result
  hostClass := m.hostClass
  call o args r := ((m.call o args r.host).1, r.record (.call m o args) (m.call o args r.host).2)

/-- The instruction over a host that is recorded. -/
def Instr.recorded : Instr σ → Instr (Recorder σ)
  | .loadRecord => .loadRecord
  | .resolveSide => .resolveSide
  | .loadSide => .loadSide
  | .loadField f => .loadField f.recorded
  | .loadLocal i => .loadLocal i
  | .storeLocal i => .storeLocal i
  | .invoke m argc => .invoke m.recorded argc
  | .push v => .push v

def Program.recorded (p : Program σ) : Program (Recorder σ) where
  directive := p.directive
  code := p.code.map Instr.recorded
  result := p.result

/-- An evaluation without its record. -/
def unrecorded (f : α → β) : Evaluation (Recorder σ) α → Evaluation σ β
  | .ok a => .ok (f a)
  | .error (fault, r) => .error (fault, r.host)

theorem unrecorded_bind {f : α → β} {g : β → Evaluation σ γ} {e : Evaluation (Recorder σ) α}
    {δ : Type} {k : α → Evaluation (Recorder σ) δ} {h : δ → γ}
    (hk : ∀ a, unrecorded h (k a) = g (f a)) :
    unrecorded h (e >>= k) = unrecorded f e >>= g := by
  cases e with
  | ok a => exact hk a
  | error stopped => rfl

def Observation.unrecorded (o : Observation (Recorder σ)) : Observation σ :=
  ⟨o.outcome, o.slots, o.host.host⟩

def Machine.unrecorded (m : Machine (Recorder σ)) : Machine σ :=
  ⟨m.side, m.locals, m.stack, m.host.host⟩

theorem Field.read_recorded {f : Field σ} {v : Value} {r : Recorder σ} :
    unrecorded (fun r => (r.1, r.2.host)) (f.recorded.read v r) = f.read v r.host := by
  unfold Field.read
  rw [recorded]
  cases receiver f.name f.hostClass v <;> rfl

theorem Method.invoke_recorded {m : Method σ} {v : Value} {args : List Value} {r : Recorder σ} :
    unrecorded (fun r => (r.1, r.2.host)) (m.recorded.invoke v args r) =
      m.invoke v args r.host := by
  unfold Method.invoke
  rw [recorded]
  cases receiver m.name m.hostClass v with
  | error fault => rfl
  | ok o =>
      dsimp only
      cases m.call o args r.host with
      | mk result host => cases result <;> rfl

namespace Machine

variable {roots : Roots} {m : Machine (Recorder σ)}

theorem step_recorded {i : Instr σ} :
    FlagSelect.unrecorded unrecorded (m.step roots i.recorded) = m.unrecorded.step roots i := by
  cases m with
  | mk side locals stack host =>
  cases i with
  | loadRecord => rfl
  | resolveSide =>
      simp only [Instr.recorded, step]
      cases roots.side <;> rfl
  | loadSide => cases side <;> rfl
  | loadField f =>
      cases stack with
      | nil => rfl
      | cons v rest =>
          simp only [Instr.recorded, step, unrecorded, ← Field.read_recorded]
          exact unrecorded_bind fun _ => rfl
  | loadLocal i =>
      simp only [Instr.recorded, step, unrecorded]
      cases locals.get? i <;> rfl
  | storeLocal i => cases stack <;> rfl
  | invoke f argc =>
      simp only [Instr.recorded, step, unrecorded]
      cases stack.drop argc with
      | nil => rfl
      | cons v rest =>
          simp only [← Method.invoke_recorded]
          exact unrecorded_bind fun _ => rfl
  | push v => rfl

theorem run_recorded {code : List (Instr σ)} :
    FlagSelect.unrecorded unrecorded (m.run roots (code.map Instr.recorded)) =
      m.unrecorded.run roots code := by
  induction code generalizing m with
  | nil => rfl
  | cons i code ih =>
      rw [List.map_cons, run_cons, run_cons, ← step_recorded]
      exact unrecorded_bind fun _ => ih

/-- The value and the machine that an evaluation gives, without the record. -/
def unrecordedResult (r : Value × Machine (Recorder σ)) : Value × Machine σ :=
  (r.1, r.2.unrecorded)

theorem eval_recorded {p : Program σ} :
    FlagSelect.unrecorded unrecordedResult (m.eval roots p.recorded) =
      m.unrecorded.eval roots p := by
  unfold eval
  have hrun : FlagSelect.unrecorded unrecorded
      (({ m with stack := [] } : Machine (Recorder σ)).run roots (p.code.map Instr.recorded)) =
      ({ m.unrecorded with stack := [] } : Machine σ).run roots p.code := run_recorded
  rw [← hrun]
  refine unrecorded_bind fun m' => ?_
  cases m' with
  | mk side locals stack host =>
  match stack with
  | [] => rfl
  | [_] => rfl
  | _ :: _ :: _ => rfl

theorem reached_recorded {code : List (Instr σ)} :
    (m.reached roots (code.map Instr.recorded)).unrecorded = m.unrecorded.reached roots code := by
  induction code generalizing m with
  | nil => rfl
  | cons i code ih =>
      rw [List.map_cons, reached, reached, ← step_recorded]
      cases m.step roots i.recorded with
      | ok m' => exact ih
      | error stopped => rfl

/-- Recording changes nothing else that can be seen of programs. -/
theorem observeEach_recorded {programs : List (Program σ)} :
    (m.observeEach roots (programs.map Program.recorded)).map Observation.unrecorded =
      m.unrecorded.observeEach roots programs := by
  induction programs generalizing m with
  | nil => rfl
  | cons p programs ih =>
      rw [List.map_cons, observeEach, observeEach, ← eval_recorded]
      cases m.eval roots p.recorded with
      | ok r => exact congrArg _ ih
      | error stopped =>
          have hreached :
              (reached roots { m with stack := [] } (p.code.map Instr.recorded)).unrecorded =
              reached roots { m.unrecorded with stack := [] } p.code := reached_recorded
          simp only [List.map_cons, List.map_nil, FlagSelect.unrecorded, ← hreached]
          rfl

end Machine

end FlagSelect
