/-
A campaign: a player's way through a list of levels.

A player starts, submits programs for the level in progress, goes on after a success,
and may return to any level that is unlocked: one that is solved, or the first that is
not.  Every call answers with a `Turn`: the reply, the state after it and the events in
between.  A refused call changes nothing.
-/
import RobotMaze.Run

namespace RobotMaze

/-- What is remembered of one level. -/
structure Standing where
  solved : Bool
  /-- How many programs were submitted for it, as far as the counter reaches. -/
  attempts : Nat
deriving DecidableEq

/-- The largest number of attempts that is told from a larger one: the counter has 32 bits
and stays where it is when it is full. -/
def Standing.attemptLimit : Nat := 4294967295

/-- Levels, and how far the player has come. -/
structure Campaign where
  levels : List Level
  settings : CampaignSettings
  stage : Stage
  /-- One entry for each level. -/
  standings : List Standing
deriving DecidableEq

/-- Why a call is refused. -/
inductive CampaignError where
  | noActiveLevel (stage : Stage)
  /-- The level lies behind one that is not solved. -/
  | levelLocked (index : Nat)
  | outOfRange (index count : Nat)
deriving DecidableEq

def CampaignError.message : CampaignError → String
  | noActiveLevel stage => "no level is in progress (state: " ++ stage.text ++ ")"
  | levelLocked index => "level " ++ Text.ofNat index ++ " is still locked"
  | outOfRange index count =>
    "level " ++ Text.ofNat index ++ " does not exist (" ++ Text.ofNat count ++ " levels)"

namespace Campaign

/-- A player who has not started. -/
def create (levels : List Level) (settings : CampaignSettings) : Campaign where
  levels := levels
  settings := settings
  stage := .notStarted
  standings := List.replicate levels.length { solved := false, attempts := 0 }

/-! ### What can be asked -/

/-- The level that is being attempted or was just solved. -/
def current? (p : Campaign) : Option Level :=
  match p.stage with
  | .inProgress i => p.levels[i]?
  | .solved i => p.levels[i]?
  | _ => none

/-- Whether a level is solved; there is nothing to solve beyond the last one. -/
def isSolved (p : Campaign) (i : Nat) : Bool :=
  (p.standings[i]?.map Standing.solved).getD false

def attempts (p : Campaign) (i : Nat) : Nat :=
  (p.standings[i]?.map Standing.attempts).getD 0

def solvedCount (p : Campaign) : Nat :=
  p.standings.countP Standing.solved

/-- The number of the first level that is not solved. -/
def frontier (p : Campaign) : Nat :=
  p.standings.findIdx fun s => !s.solved

def isUnlocked (p : Campaign) (i : Nat) : Bool :=
  i < p.levels.length && i ≤ p.frontier

/-! ### What can be done -/

/-- What a call answers: a reply or a refusal, the state after it, and the events. -/
structure Turn (α : Type) where
  reply : Except CampaignError α
  state : Campaign
  events : List Event

def refuse {α : Type} (p : Campaign) (e : CampaignError) : Turn α :=
  { reply := .error e, state := p, events := [] }

def enter (p : Campaign) (stage : Stage) : Turn Stage :=
  { reply := .ok stage
    state := { p with stage }
    events := [.progressed p.stage stage] }

/-- The stage after a level: the next level, or completion after the last. -/
def stageAfter (p : Campaign) (i : Nat) : Stage :=
  if i + 1 < p.levels.length then .inProgress (i + 1) else .allComplete

/-- Opens the first level.  After the start it has no effect. -/
def start (p : Campaign) : Turn Stage :=
  match p.stage with
  | .notStarted => p.enter (if p.levels.isEmpty then .allComplete else .inProgress 0)
  | stage => { reply := .ok stage, state := p, events := [] }

/-- Goes on from a level that was just solved. -/
def advance (p : Campaign) : Turn Stage :=
  match p.stage with
  | .solved i => p.enter (p.stageAfter i)
  | stage => p.refuse (.noActiveLevel stage)

def select (p : Campaign) (i : Nat) : Turn Stage :=
  if i < p.levels.length then
    if p.isUnlocked i then p.enter (.inProgress i) else p.refuse (.levelLocked i)
  else p.refuse (.outOfRange i p.levels.length)

def countAttempt (p : Campaign) (i : Nat) : Campaign :=
  { p with standings := p.standings.modify i fun s =>
      { s with attempts := min (s.attempts + 1) Standing.attemptLimit } }

def markSolved (p : Campaign) (i : Nat) : Campaign :=
  { p with standings := p.standings.modify i fun s => { s with solved := true } }

/-- What follows a success: the level counts as solved, and the player goes on at once
if the settings say so.  Should going on be refused, so is the whole call, but what was
changed before stays changed. -/
def succeed (p : Campaign) (i : Nat) (l : Level) : Turn Unit :=
  let solved := (p.markSolved i).enter (.solved i)
  let events := .levelSolved l.name i (p.attempts i) :: solved.events
  if p.settings.autoAdvance then
    let next := solved.state.advance
    { reply := next.reply.map fun _ => (), state := next.state, events := events ++ next.events }
  else { reply := .ok (), state := solved.state, events }

def submit (p : Campaign) (cs : Program) : Turn Outcome :=
  match p.stage with
  | .inProgress i =>
    match p.levels[i]? with
    | none => p.refuse (.noActiveLevel p.stage)
    | some l =>
      let counted := p.countAttempt i
      let outcome := l.run cs
      let after := if outcome.solved then counted.succeed i l
        else { reply := .ok (), state := counted, events := [] }
      { reply := after.reply.map fun _ => outcome
        state := after.state
        events := l.runEvents cs ++ after.events }
  | stage => p.refuse (.noActiveLevel stage)

inductive Call where
  | start
  | submit (program : Program)
  | advance
  | select (index : Nat)
deriving DecidableEq

/-- What a call replies with when it is not refused. -/
inductive Reply where
  | stage (s : Stage)
  | outcome (o : Outcome)
deriving DecidableEq

def Turn.map {α β : Type} (f : α → β) (t : Turn α) : Turn β :=
  { reply := t.reply.map f, state := t.state, events := t.events }

def perform (p : Campaign) : Call → Turn Reply
  | .start => p.start.map .stage
  | .submit cs => (p.submit cs).map .outcome
  | .advance => p.advance.map .stage
  | .select i => (p.select i).map .stage

def performAll (p : Campaign) (calls : List Call) : Campaign :=
  calls.foldl (fun q c => (q.perform c).state) p

end Campaign

end RobotMaze
