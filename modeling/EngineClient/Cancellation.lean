/-!
# Cancellation flags

A flag tells a download to stop. Copies of a flag share one signal, so raising any of them raises
all of them, and a raised signal stays raised.
-/

namespace EngineClient

/-- Some flags: the signal that each of them shares, by its number, and which signals have been
raised. -/
structure Flags where
  signalOf : List Nat
  raised : List Nat
deriving Repr, DecidableEq

namespace Flags

def one : Flags := ⟨[0], []⟩

def states (f : Flags) : List Bool := f.signalOf.map f.raised.contains

/-- Adds a flag with a signal of its own: as there are never more signals than flags, the number of
flags is the number of no signal yet. -/
def addNew (f : Flags) : Flags := { f with signalOf := f.signalOf ++ [f.signalOf.length] }

def addCopy (f : Flags) (flag : Nat) : Flags :=
  { f with signalOf := f.signalOf ++ f.signalOf[flag]?.toList }

/-- Raises a flag and its copies. -/
def raise (f : Flags) (flag : Nat) : Flags :=
  { f with raised := f.signalOf[flag]?.toList ++ f.raised }

end Flags

end EngineClient
