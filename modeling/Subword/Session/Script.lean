import Subword.Session.Basic
import Subword.Sink

/-!
Scripts: sequences of actions on a session whose writes go to one sink. A write that fails ends its own
action only, and the writes behind it in this action are not made.
-/
namespace Subword.Session

inductive Action where
  /-- Takes a line and shows its turn. -/
  | line (text : Text)
  /-- Takes a line without showing its turn. -/
  | take (text : Text)
  /-- Shows the turn of the last line once more. -/
  | again
  /-- Shows a turn, wherever it comes from. -/
  | render (turn : Turn)
  | banner (examples : List Text)
  | prompt
  | farewell
  /-- Ends the session from outside. -/
  | terminate

/-- A session in a script: the turn of the last line, the sink, and whether the last action failed to
write. -/
structure Stage where
  session : Session
  turn : Turn := .skip
  sink : Sink := {}
  blocked : Bool := false

namespace Stage

def put (st : Stage) (writes : List Text) : Stage :=
  match st.sink.printAll writes with
  | .ok sink => { st with sink, blocked := false }
  | .error sink => { st with sink, blocked := true }

def perform (st : Stage) : Action → Stage
  | .line text =>
    let (turn, session) := st.session.handleLine text
    { st with session, turn }.put (turn.writes session.limits)
  | .take text =>
    let (turn, session) := st.session.handleLine text
    { st with session, turn, blocked := false }
  | .again => st.put (st.turn.writes st.session.limits)
  | .render turn => st.put (turn.writes st.session.limits)
  | .banner examples => st.put (Session.banner st.session.provider examples)
  | .prompt => st.put [Session.prompt]
  | .farewell => st.put [Session.farewell]
  | .terminate => { st with session := st.session.terminate, blocked := false }

def performAll (st : Stage) (actions : List Action) : Stage := actions.foldl perform st

end Stage

end Subword.Session
