import Minilang.Run.Evaluation

namespace Minilang

structure RunOptions where
  undefined : UndefinedMode := .strict
  tracing : Bool := false
deriving Repr

-- An output that takes so many more prints, and then refuses each with an error of its own.
structure Sink where
  room : Nat
  error : String
deriving DecidableEq, Repr

-- Without a sink every print is taken.
structure Machine where
  store : Store
  printed : Array Int
  trace : Array (NodeKind × Position)
  sink : Option Sink

namespace Machine

def start (store : Store) (sink : Option Sink) : Machine := ⟨store, #[], #[], sink⟩

def outputLines (m : Machine) : List String := m.printed.toList.map decimal

def output (m : Machine) : String := String.join (m.outputLines.map (· ++ "\n"))

def traceLine (entry : NodeKind × Position) : String := entry.1.text ++ " at " ++ entry.2.text

def traceLines (m : Machine) : List String := m.trace.toList.map traceLine

def print (m : Machine) (value : Int) : Except String Machine :=
  match m.sink with
  | none => .ok { m with printed := m.printed.push value }
  | some ⟨0, error⟩ => .error error
  | some ⟨n + 1, error⟩ => .ok { m with printed := m.printed.push value, sink := some ⟨n, error⟩ }

def record (m : Machine) (tracing : Bool) (node : NodeKind × Position) : Machine :=
  if tracing then { m with trace := m.trace.push node } else m

end Machine

-- A loop may never end, so each is given a bound on its rounds. Nothing else in a run needs one.
inductive Progress where
  | finished (m : Machine)
  | failed (fault : Fault) (m : Machine)
  | unfinished

namespace Progress

def andThen (p : Progress) (next : Machine → Progress) : Progress :=
  match p with
  | finished m => next m
  | failed fault m => failed fault m
  | unfinished => unfinished

end Progress

def Machine.evaluate (mode : UndefinedMode) (e : Expr) (m : Machine)
    (next : Int → Machine → Progress) : Progress :=
  match e.eval mode m.store with
  | (.ok value, store) => next value { m with store := store }
  | (.error fault, store) => .failed fault { m with store := store }

def rounds (mode : UndefinedMode) (condition : Expr) (body : Machine → Progress) :
    Nat → Machine → Progress
  | 0, _ => .unfinished
  | n + 1, m =>
    match condition.eval mode m.store with
    | (.error fault, store) => .failed fault { m with store := store }
    | (.ok value, store) =>
      if Integer.truthy value then
        match body { m with store := store } with
        | .finished m => rounds mode condition body n m
        | .failed fault m => .failed fault m
        | .unfinished => .unfinished
      else .finished { m with store := store }

mutual

def Stmt.exec (options : RunOptions) (bound : Nat) : Stmt → Machine → Progress
  | .expr .missing, m => .failed (.internal none) m
  | .expr e, m =>
    (match e.node? with
      | some node => m.record options.tracing node
      | none => m).evaluate options.undefined e fun _ m => .finished m
  | .branch origin condition body, m =>
    (m.record options.tracing (.branch, origin.position)).evaluate options.undefined condition
      fun value m => if Integer.truthy value then execBlock options bound body m else .finished m
  | .loop origin condition body, m =>
    rounds options.undefined condition (execBlock options bound body) bound
      (m.record options.tracing (.loop, origin.position))
  | .print origin e, m =>
    (m.record options.tracing (.print, origin.position)).evaluate options.undefined e
      fun value m =>
        match m.print value with
        | .ok m => .finished m
        | .error error => .failed (.closedOutput error) m

def execBlock (options : RunOptions) (bound : Nat) : List Stmt → Machine → Progress
  | [], m => .finished m
  | s :: rest, m => (s.exec options bound m).andThen fun m => execBlock options bound rest m

end

end Minilang
