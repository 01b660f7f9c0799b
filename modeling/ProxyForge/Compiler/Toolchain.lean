import ProxyForge.Compiler.Request
import ProxyForge.Compiler.Response
import ProxyForge.Log
import ProxyForge.Version.Basic

/-!
# Toolchains

A toolchain compiles requests and knows its version. It may have a state of its own, which each call hands on, and
may log; when it fails it says why by a chain of causes, the outermost first.
-/

namespace ProxyForge.Compiler

/-- Why a toolchain failed: a cause and what lies behind it. -/
structure Causes where
  outermost : String
  inner : List String
  deriving DecidableEq, Repr

namespace Causes

/-- All causes, the outermost first. -/
def all (c : Causes) : List String :=
  c.outermost :: c.inner

/-- A cause with nothing behind it. -/
def only (text : String) : Causes :=
  { outermost := text, inner := [] }

/-- The causes of a list; without any there is one that says nothing. -/
def ofList : List String → Causes
  | [] => only ""
  | text :: inner => { outermost := text, inner }

end Causes

/-- What a call of a toolchain gives: its result, its log records and the state it leaves. -/
structure Reply (σ α : Type) where
  result : Except Causes α
  log : List LogRecord
  state : σ

/-- Something that compiles, with states `σ`. -/
structure Toolchain (σ : Type) where
  compile : Request → σ → Reply σ Response
  version : σ → Reply σ Version

/-- How many calls a rehearsed toolchain has answered. -/
abbrev AnswerCount := Nat

namespace Toolchain

/-- The answer to the `n`-th call; the last answer repeats. -/
def rehearsedAnswer (answers : List (Except Causes Response)) (n : Nat) : Except Causes Response :=
  match answers[min n (answers.length - 1)]? with
  | some answer => answer
  | none => .error (.only "no answer")

/-- The toolchain that gives prepared answers one after the other. -/
def rehearsed (answers : List (Except Causes Response)) (version : Except Causes Version) :
    Toolchain AnswerCount where
  compile _ n := { result := rehearsedAnswer answers n, log := [], state := n + 1 }
  version n := { result := version, log := [], state := n }

end Toolchain

end ProxyForge.Compiler
