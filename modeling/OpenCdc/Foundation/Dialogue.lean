import OpenCdc.Foundation.Bytes

/-!
# Clients that write and read in turns

A client writes a message, reads the reply, and goes on to the next message
only if the reply was what it wants.  The peer sees all that was written so
far when it sends a reply.
-/

namespace Foundation

variable {ε : Type}

/-- A client's end of a connection: what has arrived and was not read yet, and
what was written, in order. -/
structure Line where
  arrived : Bytes
  written : List Bytes

/-- A message and what the client does to read the reply. -/
structure Turn (ε : Type) where
  message : Bytes
  read : Bytes → Outcome ε Unit × Bytes

/-- The other end: what it sends after it was written to. -/
abbrev Peer := List Bytes → Bytes

namespace Line

/-- A message is written, and what the peer sends then arrives. -/
def write (line : Line) (peer : Peer) (message : Bytes) : Line where
  arrived := line.arrived ++ peer (line.written ++ [message])
  written := line.written ++ [message]

end Line

/-- The turns up to the first reply that is not what the client wants. -/
def runTurns (peer : Peer) : List (Turn ε) → Line → Outcome ε Unit × Line
  | [], line => (.ok (), line)
  | turn :: turns, line =>
      let line := line.write peer turn.message
      match turn.read line.arrived with
      | (.ok _, rest) => runTurns peer turns { line with arrived := rest }
      | (result, rest) => (result, { line with arrived := rest })

/-- Every reply is what the client wants; the line is left as it is behind the
last one. -/
inductive Answered (peer : Peer) : List (Turn ε) → Line → Line → Prop
  | nil (line : Line) : Answered peer [] line line
  | cons {turn : Turn ε} {turns : List (Turn ε)} {line line' : Line}
      {rest : Bytes}
      (hread : turn.read (line.write peer turn.message).arrived =
        (.ok (), rest))
      (hrest : Answered peer turns
        { line.write peer turn.message with arrived := rest } line') :
      Answered peer (turn :: turns) line line'

variable {peer : Peer} {turns : List (Turn ε)} {line line' : Line}

theorem runTurns_eq_ok_iff :
    runTurns peer turns line = (.ok (), line') ↔
      Answered peer turns line line' := by
  constructor
  · intro h
    induction turns generalizing line with
    | nil =>
        obtain rfl : line = line' := congrArg Prod.snd h
        exact Answered.nil line
    | cons turn turns ih =>
        rw [runTurns] at h
        rcases hread : turn.read (line.write peer turn.message).arrived with
          ⟨_ | _ | _, rest⟩ <;> simp only [hread] at h
        · exact Answered.cons hread (ih h)
        · cases h
        · cases h
  · intro h
    induction h with
    | nil => rfl
    | cons hread _ ih =>
        rw [runTurns]
        simp only [hread]
        exact ih

/-- When all replies are right, all messages were written. -/
theorem Answered.written (h : Answered peer turns line line') :
    line'.written = line.written ++ turns.map Turn.message := by
  induction h with
  | nil line => simp
  | cons _ _ ih => simp [ih, Line.write]

end Foundation
