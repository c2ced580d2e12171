import Peripheral.Ftdi.Addressing
import Peripheral.Journal

/-
  Peripheral.Op — operations on a session. An operation reads and changes the session, writes
  to the journal, and ends with a value or a failure; what it has done before a failure stays
  done.
-/

namespace Peripheral

inductive Failure
  | error (e : LinkError)
  /-- An address computation left its range; the session cannot go on. -/
  | overflow (o : Overflow)
deriving DecidableEq, Repr

/-- A session and the journal so far. -/
structure Scene (σ : Type) where
  session : σ
  journal : Journal

abbrev Op (σ : Type) := ExceptT Failure (StateM (Scene σ))

/-- Something done to the world without a session. -/
abbrev Act := StateM Journal

namespace Act

def log (e : LogEvent) : Act Unit := modify (·.log e)

def call (c : Usb.Call) : Act Unit := modify (·.call c)

end Act

namespace Op

variable {σ τ α : Type}

def fail (e : LinkError) : Op σ α := throw (.error e)

def session : Op σ σ := do return (← get).session

def set (s : σ) : Op σ Unit := modify fun c => { c with session := s }

def update (f : σ → σ) : Op σ Unit := modify fun c => { c with session := f c.session }

def act (a : Act α) : Op σ α := do
  let c ← get
  let (r, j) := a.run c.journal
  MonadState.set { c with journal := j }
  return r

def log (e : LogEvent) : Op σ Unit := act (Act.log e)

def require : Except LinkError α → Op σ α
  | .ok a => pure a
  | .error e => fail e

def within : Except Overflow α → Op σ α
  | .ok a => pure a
  | .error o => throw (.overflow o)

/-- How an operation ends, and the session and journal it leaves. -/
def perform (op : Op σ α) (s : σ) (j : Journal) : Except Failure α × σ × Journal :=
  let (r, c) := op.run.run ⟨s, j⟩
  (r, c.session, c.journal)

/-- An operation on a part of a session. -/
def onPart (part : σ) (whole : σ → τ) (op : Op σ α) : Op τ α := do
  let (r, s, j) := op.perform part (← get).journal
  MonadState.set ⟨whole s, j⟩
  match r with
  | .ok a => pure a
  | .error f => throw f

end Op

end Peripheral
