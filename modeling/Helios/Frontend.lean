import Helios.Bindings
import Helios.Command
import Helios.Platform
import Helios.Value

/-!
# The frontend

Commands with their values known are dispatched to a frontend, which answers with a value and the
callbacks to run. `Frontend` is one that draws nothing: it keeps windows, widgets, key bindings and a
game window, records every command, and replays events that were queued beforehand when a command says
`run`. A program may be given one of another kind, of which only its answers are known (`Screen`).
-/

namespace Helios

/-- A function to call with arguments that are known already. -/
structure Callback where
  function : String
  args : List Value
  deriving Repr, Inhabited

/-- **A command with its values.** Literal names arrive as strings. -/
structure FrontendCommand where
  surface : Surface
  verb : String
  args : List Value
  clauses : List (ClauseKind × List Value)
  callback : Option Callback
  deriving Repr, Inhabited

/-- Why a command failed. -/
inductive FrontendError
  /-- There is no such window or widget. -/
  | unknown (what name : String)
  | failed (command : String) (issue : FrontendIssue)
  /-- A failure in words of its own, of a frontend of another kind. -/
  | reported (message : String)
  deriving DecidableEq, Repr

namespace FrontendError

/-- The wording of a failed command. -/
def message : FrontendError → String
  | unknown what name => "unknown " ++ what ++ " `" ++ name ++ "`"
  | failed command issue => command ++ ": " ++ issue.message
  | reported message => message

/-- The cause that a failed command is for the program: an unknown thing is an unknown name. -/
def toCause : FrontendError → Cause
  | unknown _ name => .name name
  | failed command issue => .frontend command issue
  | reported message => .reported message

end FrontendError

namespace FrontendCommand

/-- Surface and verb. -/
def title (c : FrontendCommand) : String := c.surface.text ++ " " ++ c.verb

/-- The values of a clause, when the command has it. -/
def clause? (c : FrontendCommand) (kind : ClauseKind) : Option (List Value) :=
  (c.clauses.find? fun e => e.1 == kind).map Prod.snd

/-- The failure of this command. -/
def fail {α : Type} (c : FrontendCommand) (issue : FrontendIssue) : Except FrontendError α :=
  .error (.failed c.title issue)

/-- The value at a position. -/
def arg (c : FrontendCommand) (i : Nat) : Except FrontendError Value :=
  match c.args[i]? with
  | some v => .ok v
  | none => c.fail (.missingArgument i)

/-- The name at a position, as text. -/
def nameAt (c : FrontendCommand) (i : Nat) : Except FrontendError String := (c.arg i).map Value.display

/-- Check that a value is a number. -/
def checkNumber (c : FrontendCommand) (v : Value) : Except FrontendError Unit :=
  if v.isNumber then .ok () else c.fail (.notANumber v.typeName)

/-- The text of a `title` clause, or a default. -/
def titleOr (c : FrontendCommand) (default : String) : String :=
  match c.clause? .title with
  | some (t :: _) => t.display
  | _ => default

end FrontendCommand

/-- The answer to a command. -/
structure FrontendReply where
  value : Value := .nil
  /-- Callbacks to run, in order. -/
  callbacks : List Callback := []
  deriving Repr, Inhabited

/-- **What becomes of a command**: it fails, or it is answered, or the program breaks down over it. -/
inductive FrontendOutcome
  | error (e : FrontendError)
  | ok (reply : FrontendReply)
  | broken
  deriving Repr

/-- An event that waits for the next `run`. -/
inductive ScriptedEvent
  /-- Click a widget. -/
  | click (widget : String)
  /-- Press a key in a window. -/
  | press (window key : String)
  /-- Press a key in the game. -/
  | gameKey (key : String)
  deriving DecidableEq, Repr

/-- A window. -/
structure Window where
  title : String
  size : Option (Value × Value) := none
  bg : Option Value := none
  fg : Option Value := none
  deriving Repr, Inhabited

/-- A widget of a window. -/
structure Widget where
  window : String
  kind : String
  text : Value
  value : Value
  callback : Option Callback
  deriving Repr, Inhabited

/-- The game window. -/
structure GameWindow where
  width : Value
  height : Value
  title : String
  deriving Repr, Inhabited

/-- **The state of the frontend.** -/
structure Frontend where
  /-- Every command received, failed ones included. -/
  events : Array FrontendCommand
  windows : Bindings Window
  widgets : Bindings Widget
  /-- Callbacks by window and key. -/
  bindings : Bindings (Bindings Callback)
  /-- Callbacks by key of the game. -/
  keys : Bindings Callback
  tick : Option Callback
  game : Option GameWindow
  /-- The frames of the game so far, counted in 64 bits. -/
  frames : UInt64
  /-- The events that wait. -/
  script : List ScriptedEvent
  deriving Repr

namespace Frontend

/-- Nothing open, nothing bound, no events. -/
def initial : Frontend := ⟨#[], .empty, .empty, .empty, .empty, none, none, 0, []⟩

instance : Inhabited Frontend := ⟨initial⟩

/-- Let an event wait. -/
def queue (f : Frontend) (e : ScriptedEvent) : Frontend := { f with script := f.script ++ [e] }

/-- A window that must exist. -/
def window (f : Frontend) (name : String) : Except FrontendError Window :=
  match f.windows.get? name with
  | some w => .ok w
  | none => .error (.unknown "window" name)

/-- A widget that must exist. -/
def widget (f : Frontend) (name : String) : Except FrontendError Widget :=
  match f.widgets.get? name with
  | some w => .ok w
  | none => .error (.unknown "widget" name)

/-- What a command does: it changes the frontend and answers, or fails and says why. -/
abbrev Effect := Except FrontendError (FrontendReply × Frontend)

/-- Change the window that the first position names. -/
def updateWindow (f : Frontend) (c : FrontendCommand) (change : Window → Window) : Effect := do
  let name ← c.nameAt 0
  let w ← f.window name
  pure ({}, { f with windows := f.windows.insert name (change w) })

/-- Change the widget that the first position names. -/
def updateWidget (f : Frontend) (c : FrontendCommand) (change : Widget → Widget) : Effect := do
  let name ← c.nameAt 0
  let w ← f.widget name
  pure ({}, { f with widgets := f.widgets.insert name (change w) })

/-- Put a widget into a window: the first position names the window, the second the widget. -/
def addWidget (f : Frontend) (c : FrontendCommand) (text value : Value) : Effect := do
  let window ← c.nameAt 0
  let _ ← f.window window
  let name ← c.nameAt 1
  pure ({}, { f with widgets := f.widgets.insert name ⟨window, c.verb, text, value, c.callback⟩ })

/-! ## Replaying events -/

/-- What is left after replaying events for a window. -/
structure Replay where
  widgets : Bindings Widget
  callbacks : List Callback
  /-- The events that still wait. -/
  left : List ScriptedEvent
  /-- A clicked widget that does not exist; it ends the replay. -/
  unknown : Option String
  deriving Repr

/-- Keep an event waiting. When the replay broke off, only events that it did not reach still wait. -/
def Replay.keep (r : Replay) (e : ScriptedEvent) : Replay :=
  if r.unknown.isSome then r else { r with left := e :: r.left }

/-- Put callbacks in front. -/
def Replay.run (r : Replay) (cs : List Callback) : Replay := { r with callbacks := cs ++ r.callbacks }

/-- A widget after a click: a checkbox changes its state. -/
def clicked (w : Widget) : Widget :=
  if w.kind = "checkbox" then { w with value := .int (if w.value.truthy then 0 else 1) } else w

/-- Replay clicks and key presses for a window; events for others keep waiting. -/
def replay (window : String) (bindings : Bindings (Bindings Callback)) :
    Bindings Widget → List ScriptedEvent → Replay
  | widgets, [] => ⟨widgets, [], [], none⟩
  | widgets, .click name :: rest =>
    match widgets.get? name with
    | none => ⟨widgets, [], rest, some name⟩
    | some w =>
      if w.window = window then
        (replay window bindings (widgets.insert name (clicked w)) rest).run w.callback.toList
      else (replay window bindings widgets rest).keep (.click name)
  | widgets, .press target key :: rest =>
    if target = window then
      (replay window bindings widgets rest).run
        ((bindings.get? target).bind fun keys => keys.get? key).toList
    else (replay window bindings widgets rest).keep (.press target key)
  | widgets, .gameKey key :: rest => (replay window bindings widgets rest).keep (.gameKey key)

/-- `ui run`: the frontend after the replay, also when it broke off. -/
def runWindow (f : Frontend) (window : String) : FrontendOutcome × Frontend :=
  let r := replay window f.bindings f.widgets f.script
  let f := { f with widgets := r.widgets, script := r.left }
  match r.unknown with
  | some name => (.error (.unknown "widget" name), f)
  | none => (.ok { callbacks := r.callbacks }, f)

/-- The callbacks of queued game keys, in order. -/
def gameKeys (keys : Bindings Callback) (script : List ScriptedEvent) : List Callback :=
  script.filterMap fun e =>
    match e with
    | .gameKey key => keys.get? key
    | _ => none

/-- The callbacks of some frames of the game, one for each. -/
def ticks (f : Frontend) (frames : Nat) : List Callback :=
  match f.tick with
  | some cb => List.replicate frames cb
  | none => []

/-- `game run`: queued keys first, then one tick for every frame. The frames are added to the counter at the end; if
    it cannot hold the sum, the program breaks down there, with the keys taken. -/
def runGame (f : Frontend) (frames : Nat) : FrontendOutcome × Frontend :=
  let left := f.script.filter fun e =>
    match e with
    | .gameKey _ => false
    | _ => true
  if f.frames.toNat + frames < UInt64.size then
    (.ok { callbacks := gameKeys f.keys f.script ++ f.ticks frames },
     { f with script := left, frames := f.frames + UInt64.ofNat frames })
  else (.broken, { f with script := left })

/-! ## Commands -/

/-- A command to a window or widget, `run` aside. -/
def dispatchUi (f : Frontend) (c : FrontendCommand) : Effect :=
  match c.verb with
  | "window" => do
    let name ← c.nameAt 0
    let size := match c.clause? .size with
      | some [w, h] => some (w, h)
      | _ => none
    pure ({}, { f with windows := f.windows.insert name { title := c.titleOr name, size } })
  | "title" => do
    let title ← c.arg 1
    f.updateWindow c fun w => { w with title := title.display }
  | "size" => do
    let width ← c.arg 1
    let height ← c.arg 2
    f.updateWindow c fun w => { w with size := some (width, height) }
  | "bg" => do
    let color ← c.arg 1
    f.updateWindow c fun w => { w with bg := some color }
  | "fg" => do
    let color ← c.arg 1
    f.updateWindow c fun w => { w with fg := some color }
  | "label" | "button" => do
    let text ← c.arg 2
    f.addWidget c text .nil
  | "entry" => f.addWidget c .nil (.str "")
  | "slider" => f.addWidget c .nil (((c.clause? .from_).bind List.head?).getD (.int 0))
  | "checkbox" => do
    let text ← c.arg 2
    f.addWidget c text (.int 0)
  | "bind" => do
    let window ← c.nameAt 0
    let _ ← f.window window
    match c.callback with
    | none => c.fail .missingCallback
    | some cb =>
      let key ← c.nameAt 1
      let keys := ((f.bindings.get? window).getD .empty).insert key cb
      pure ({}, { f with bindings := f.bindings.insert window keys })
  | "text" => do
    let text ← c.arg 1
    f.updateWidget c fun w => { w with text }
  | "set" => do
    let value ← c.arg 1
    f.updateWidget c fun w => { w with value }
  | "get" => do
    let w ← f.widget (← c.nameAt 0)
    pure ({ value := w.value }, f)
  | other => c.fail (.unsupportedVerb other)

/-- The game window must be open. -/
def requireGame (f : Frontend) (c : FrontendCommand) : Except FrontendError Unit :=
  if f.game.isSome then .ok () else c.fail .noGameWindow

/-- Check that each of some values is a number. -/
def checkNumbers (c : FrontendCommand) : List Value → Except FrontendError Unit
  | [] => .ok ()
  | v :: rest => do
    c.checkNumber v
    checkNumbers c rest

/-- The number of frames that `game run` asks for, one by default. -/
def frameCount (c : FrontendCommand) : Except FrontendError Nat :=
  match c.clause? .frames with
  | some [v] =>
    match v with
    | .int n => if 0 ≤ n.toInt then .ok n.toInt.toNat else c.fail (.frameCount v.display)
    | _ => c.fail (.frameCount v.display)
  | _ => .ok 1

/-- A command to the game, `run` aside. -/
def dispatchGame (f : Frontend) (c : FrontendCommand) : Effect :=
  match c.verb with
  | "window" => do
    let width ← c.arg 0
    let height ← c.arg 1
    checkNumbers c [width, height]
    pure ({}, { f with game := some ⟨width, height, c.titleOr "Solar"⟩ })
  | "clear" | "sound" => do
    f.requireGame c
    pure ({}, f)
  | "rect" | "circle" | "line" => do
    f.requireGame c
    checkNumbers c c.args
    pure ({}, f)
  | "text" => do
    f.requireGame c
    match c.clause? .at_ with
    | some vs => if vs.all Value.isNumber then pure ({}, f) else c.fail .placeNotNumbers
    | none => pure ({}, f)
  | "key" =>
    match c.callback with
    | none => c.fail .missingCallback
    | some cb => do
      let key ← c.nameAt 0
      pure ({}, { f with keys := f.keys.insert key cb })
  | "tick" => .ok ({}, { f with tick := c.callback })
  | "quit" => .ok ({}, { f with game := none })
  | other => c.fail (.unsupportedVerb other)

/-- Carry out an effect; a failure leaves the frontend as it was. -/
def carryOut (f : Frontend) (effect : Effect) : FrontendOutcome × Frontend :=
  match effect with
  | .ok (reply, f) => (.ok reply, f)
  | .error e => (.error e, f)

/-- The number of frames to run the game for, when it is open. -/
def gameRun (f : Frontend) (c : FrontendCommand) : Except FrontendError Nat := do
  f.requireGame c
  frameCount c

/-- The window to run, which must exist. -/
def windowRun (f : Frontend) (c : FrontendCommand) : Except FrontendError String := do
  let name ← c.nameAt 0
  let _ ← f.window name
  pure name

/-- **Dispatch a command.** It is recorded whether it fails or not. -/
def dispatch (f : Frontend) (c : FrontendCommand) : FrontendOutcome × Frontend :=
  let f := { f with events := f.events.push c }
  match c.surface with
  | .game =>
    if c.verb = "run" then
      match f.gameRun c with
      | .ok frames => f.runGame frames
      | .error e => (.error e, f)
    else f.carryOut (f.dispatchGame c)
  | .ui =>
    if c.verb = "run" then
      match f.windowRun c with
      | .ok name => f.runWindow name
      | .error e => (.error e, f)
    else f.carryOut (f.dispatchUi c)

end Frontend

/-- **What a program sends its commands to**: the frontend that draws nothing, or one of another kind, with a state
    of its own. -/
inductive Screen
  | headless (f : Frontend)
  | other (o : Oracle FrontendCommand FrontendOutcome)

namespace Screen

/-- Nothing open, nothing bound, no events. -/
def initial : Screen := headless .initial

/-- Dispatch a command. -/
def dispatch : Screen → FrontendCommand → FrontendOutcome × Screen
  | headless f, c =>
    let (r, f) := f.dispatch c
    (r, headless f)
  | other o, c =>
    let (r, o) := o.ask c
    (r, other o)

/-- Let an event wait. Others than the frontend that draws nothing have their events from elsewhere. -/
def queue (s : Screen) (e : ScriptedEvent) : Screen :=
  match s with
  | headless f => headless (f.queue e)
  | other o => other o

end Screen

end Helios
