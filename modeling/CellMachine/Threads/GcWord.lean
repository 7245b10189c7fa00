/-!
# The word that drives a collection

Whether a cycle is requested, the number of the cycle, how many threads have not yet
left it and how many threads are registered, packed into one 64-bit word that threads
change one at a time. Each operation below is one such change. It may have to wait, and
it may find a count that it cannot change; the word stays as it was in both cases.
-/

namespace CellMachine

/-- The fields of the word, apart. -/
structure GcFields where
  requested : Bool
  epoch : UInt64
  participants : UInt64
  threads : UInt64
deriving DecidableEq, Repr, Inhabited

structure GcWord where
  bits : UInt64
deriving DecidableEq, Repr, Inhabited

/-- Why an operation on the word did not take place. -/
inductive GcHold where
  /-- It has to wait for the running cycle. -/
  | blocked
  | threadOverflow
  | threadUnderflow
  | participantUnderflow
deriving DecidableEq, Repr

namespace GcHold

/-- What is reported for a count out of range; waiting reports nothing. -/
def message? : GcHold → Option String
  | blocked => none
  | threadOverflow => some "thread count overflow"
  | threadUnderflow => some "thread count underflow"
  | participantUnderflow => some "participant count underflow"

end GcHold

/-- How an election came out. -/
structure Election where
  coordinator : Bool
  epoch : UInt64
  participants : UInt64
deriving DecidableEq, Repr

namespace GcWord

def epochMask : UInt64 := 0x7fff

def countMask : UInt64 := 0xffffff

def pack (f : GcFields) : GcWord :=
  ⟨f.requested.toUInt64 ||| f.epoch <<< 1 ||| f.participants <<< 16 ||| f.threads <<< 40⟩

def unpack (w : GcWord) : GcFields where
  requested := w.bits &&& 1 != 0
  epoch := (w.bits >>> 1) &&& epochMask
  participants := (w.bits >>> 16) &&& countMask
  threads := (w.bits >>> 40) &&& countMask

/-- No cycle and no thread. -/
def initial : GcWord := pack ⟨false, 0, 0, 0⟩

def isRequested (w : GcWord) : Bool := w.unpack.requested

def participants (w : GcWord) : UInt64 := w.unpack.participants

def threads (w : GcWord) : UInt64 := w.unpack.threads

/-- How many threads take part in the requested cycle. -/
def activeParticipants? (w : GcWord) : Option UInt64 :=
  if w.isRequested then some w.participants else none

/-- Registers a thread, after any requested cycle has been left by all. -/
def register (w : GcWord) : Except GcHold GcWord :=
  let f := w.unpack
  if f.requested || f.participants != 0 then .error .blocked
  else if countMask < f.threads + 1 then .error .threadOverflow
  else .ok (pack { f with threads := f.threads + 1 })

/-- Removes a thread; the answer is `false` while a cycle is requested. -/
def deregister (w : GcWord) : Except GcHold (Bool × GcWord) :=
  let f := w.unpack
  if f.requested then .ok (false, w)
  else if f.threads = 0 then .error .threadUnderflow
  else .ok (true, pack { f with threads := f.threads - 1 })

/-- Requests a cycle in which all registered threads take part, or joins the requested
one. A new cycle waits until the last one has been left by all. -/
def start (w : GcWord) : Except GcHold (Election × GcWord) :=
  let f := w.unpack
  if f.requested then .ok (⟨false, f.epoch, f.participants⟩, w)
  else if f.participants != 0 then .error .blocked
  else
    let epoch := (f.epoch + 1) &&& epochMask
    .ok (⟨true, epoch, f.threads⟩, pack ⟨true, epoch, f.threads, f.threads⟩)

/-- Ends the requested cycle; its participants still have to leave it. -/
def finish (w : GcWord) : GcWord :=
  let f := w.unpack
  if f.requested then pack { f with requested := false } else w

/-- One participant leaves the cycle. -/
def depart (w : GcWord) : Except GcHold GcWord :=
  let f := w.unpack
  if f.participants = 0 then .error .participantUnderflow
  else .ok (pack { f with participants := f.participants - 1 })

def departAll : Nat → GcWord → Except GcHold GcWord
  | 0, w => .ok w
  | n + 1, w => w.depart.bind (departAll n)

/-- A whole cycle: started, finished and left by all its participants. -/
def cycle (w : GcWord) : Except GcHold (UInt64 × GcWord) :=
  if w.isRequested || w.participants != 0 then .error .blocked
  else do
    let (election, w) ← w.start
    let w ← departAll election.participants.toNat w.finish
    return (election.epoch, w)

example : (initial.register.bind start).toOption.map (·.2.bits) = some 1099511693315 := by
  decide +kernel

end GcWord

end CellMachine
