import ProxyForge.Compiler.Session

/-!
# Sessions up to what is logged

Two steps are alike if from sessions in which the same was done with the toolchain they give the same result and again
leave such sessions (`Alike`). Logging is like doing nothing, steps that are alike can be put one behind the other
(`Alike.bind`), and everything that compiling is made of is like itself, since no step looks at the events.
-/

namespace ProxyForge.Compiler

/-- The events that concern the toolchain. -/
def toolchainEvents (events : List Event) : List Event :=
  events.filter fun
    | .logged _ => false
    | _ => true

/-- Sessions that differ at most in what is logged. -/
structure Session.Agree {σ : Type} (s t : Session σ) : Prop where
  state : s.state = t.state
  events : toolchainEvents s.events = toolchainEvents t.events

@[simp] theorem toolchainEvents_append (as bs : List Event) :
    toolchainEvents (as ++ bs) = toolchainEvents as ++ toolchainEvents bs :=
  List.filter_append as bs

@[simp] theorem toolchainEvents_map_logged {α : Type} (record : α → LogRecord) (as : List α) :
    toolchainEvents (as.map fun a => .logged (record a)) = [] := by
  induction as with
  | nil => rfl
  | cons a as ih => exact ih

namespace Session.Agree

variable {σ : Type} {s t : Session σ}

theorem refl (s : Session σ) : s.Agree s :=
  ⟨rfl, rfl⟩

theorem symm (h : s.Agree t) : t.Agree s :=
  ⟨h.state.symm, h.events.symm⟩

theorem trans {u : Session σ} (h : s.Agree t) (h' : t.Agree u) : s.Agree u :=
  ⟨h.state.trans h'.state, h.events.trans h'.events⟩

end Session.Agree

namespace Action

variable {σ α β : Type}

/-- Steps with the same result that use the toolchain in the same way. -/
def Alike (a b : Action σ α) : Prop :=
  ∀ s t : Session σ, s.Agree t → (a.runIn s).1 = (b.runIn t).1 ∧ (a.runIn s).2.Agree (b.runIn t).2

theorem Alike.symm {a b : Action σ α} (h : Alike a b) : Alike b a := by
  intro s t agree
  obtain ⟨result, after⟩ := h t s agree.symm
  exact ⟨result.symm, after.symm⟩

theorem Alike.trans {a b c : Action σ α} (h : Alike a b) (h' : Alike b c) : Alike a c := by
  intro s t agree
  obtain ⟨result, after⟩ := h s t agree
  obtain ⟨result', after'⟩ := h' t t (.refl t)
  exact ⟨result.trans result', after.trans after'⟩

/-- Steps that are alike stay so when what follows is alike for every result. -/
theorem Alike.bind {a b : Action σ α} {f g : α → Action σ β} (h : Alike a b) (rest : ∀ v, Alike (f v) (g v)) :
    Alike (a >>= f) (b >>= g) := by
  intro s t agree
  obtain ⟨result, after⟩ := h s t agree
  rw [runIn_bind, runIn_bind]
  cases ha : a.runIn s with
  | mk r s' =>
    cases hb : b.runIn t with
    | mk r' t' =>
      rw [ha, hb] at result after
      cases result
      cases r with
      | error failure => exact ⟨rfl, after⟩
      | ok v => exact rest v s' t' after

theorem alike_ofExcept (r : Except Failure α) : Alike (ofExcept r : Action σ α) (ofExcept r) := by
  intro s t agree
  exact ⟨rfl, agree⟩

theorem alike_pure (v : α) : Alike (pure v : Action σ α) (pure v) :=
  alike_ofExcept (.ok v)

theorem alike_throw (failure : Failure) : Alike (throw failure : Action σ α) (throw failure) :=
  alike_ofExcept (.error failure)

/-- Entering log records is like doing nothing. -/
theorem alike_enter_logged {γ : Type} (record : γ → LogRecord) (cs : List γ) :
    Alike (enter (cs.map fun c => .logged (record c)) : Action σ Unit) (pure ()) := by
  intro s t agree
  refine ⟨rfl, agree.state, ?_⟩
  simpa using agree.events

/-- Logging is like doing nothing. -/
theorem alike_log (level : LogLevel) (text : String) : Alike (log level text : Action σ Unit) (pure ()) :=
  alike_enter_logged (fun _ : Unit => { level, text }) [()]

/-- A toolchain that is called in the same state does the same. -/
theorem alike_call (event : Event) (f : σ → Reply σ α) : Alike (call event f) (call event f) := by
  intro s t agree
  rw [runIn_call, runIn_call, agree.state]
  refine ⟨rfl, rfl, ?_⟩
  simp only [toolchainEvents_append, agree.events]

/-- What follows a log record is like the same without the record. -/
theorem Alike.log_bind {a b : Action σ α} (h : Alike a b) (level : LogLevel) (text : String) :
    Alike (log level text >>= fun _ => a) b := by
  have skip := (alike_log level text).bind fun _ => h
  rwa [pure_bind] at skip

end Action

variable {σ : Type}

/-- Extracting an artifact is like having it. -/
theorem alike_extract (r : Response) (file name : String) :
    Action.Alike (extract r file name : Action σ Artifact) (Action.ofExcept (r.artifact file name)) := by
  have warned : Action.Alike (Action.enter (r.warnings.map fun d =>
      .logged { level := .warn, text := s!"`{contractPath file name}` compilation: {d.text}" }) : Action σ Unit)
      (pure ()) :=
    Action.alike_enter_logged _ r.warnings
  have found : Action.Alike (Action.ofExcept (r.artifact file name) >>= fun artifact =>
      Action.log .debug s!"`{contractPath file name}` compiled: {artifact.bytecode.length} bytes of deploy bytecode" >>=
        fun _ => pure artifact) (Action.ofExcept (r.artifact file name) >>= pure : Action σ Artifact) :=
    (Action.alike_ofExcept _).bind fun artifact => (Action.alike_pure artifact).log_bind _ _
  have both := warned.bind fun _ => found
  rwa [pure_bind, bind_pure] at both

theorem Setup.alike_submit (c : Setup σ) (request : Request) (file name : String) :
    Action.Alike (c.submit request file name) (c.submit request file name) := by
  apply Action.Alike.bind (Action.alike_call _ _)
  intro result
  cases result with
  | error causes => exact Action.alike_throw _
  | ok response => exact Action.alike_pure response

end ProxyForge.Compiler
