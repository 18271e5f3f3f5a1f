/-
The channel that a replay listens to.

It carries one flag and remembers the last value only.  A receiver is told that there
is news as long as a value was sent that it has not observed, or the sender has gone
away and it still listens; after it has observed that, it listens no longer, so it
cannot be woken without end.
-/
namespace RobotMaze.Replay

/-- Something that the sender does. -/
inductive Signal where
  | send (flag : Bool)
  | leave
deriving DecidableEq

/-- The receiving end of the channel. -/
structure Receiver where
  /-- The last value sent. -/
  flag : Bool
  /-- Whether a value was sent since the last observation. -/
  unseen : Bool
  /-- Whether the sender is gone. -/
  closed : Bool
  /-- Whether the replay still listens. -/
  listening : Bool
deriving DecidableEq

namespace Receiver

def fresh : Receiver :=
  { flag := false, unseen := false, closed := false, listening := true }

/-- What the receiver knows after a signal; nothing is sent by a sender that is gone. -/
def receive (r : Receiver) : Signal → Receiver
  | .send flag => if r.closed then r else { r with flag, unseen := true }
  | .leave => { r with closed := true }

/-- What the receiver knows after a list of signals. -/
def receiveAll (r : Receiver) (signals : List Signal) : Receiver :=
  signals.foldl receive r

/-- Whether the channel wakes a replay that waits. -/
def hasNews (r : Receiver) : Bool :=
  r.listening && (r.unseen || r.closed)

/-- Takes note of the news: a value that was sent, or else that the sender is gone. -/
def observe (r : Receiver) : Receiver :=
  if r.unseen then { r with unseen := false } else { r with listening := false }

/-- How many observations the channel can still cause without a further signal. -/
def pendingNews (r : Receiver) : Nat :=
  (if r.unseen then 1 else 0) + (if r.listening then 1 else 0)

theorem pendingNews_observe_lt {r : Receiver} (h : r.hasNews = true) :
    r.observe.pendingNews < r.pendingNews := by
  rcases r with ⟨flag, unseen, closed, listening⟩
  cases unseen <;> cases listening <;> simp_all [hasNews, observe, pendingNews]

end Receiver

end RobotMaze.Replay
