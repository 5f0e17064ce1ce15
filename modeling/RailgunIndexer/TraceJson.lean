import RailgunIndexer.Calldata
import RailgunIndexer.Lib.Rose

/-!
# Traces as JSON

A trace request returns JSON. `debug_traceTransaction` nests the calls of a frame in its `calls`, and
`trace_transaction` returns one flat list whose entries have the fields of the call in `action` and its
place in the call tree in `traceAddress`. `traceFrame` and `flatTraceFrames` are what is read from them.
-/

namespace RailgunIndexer

open Lib Rose

inductive Value where
  | null
  | bool (value : Bool)
  | number (value : Nat)
  | string (value : String)
  | array (items : List Value)
  | object (fields : List (String × Value))

namespace Value

def get (key : String) : Value → Option Value
  | object fields => fields.lookup key
  | _ => none

def asStr : Value → Option String
  | string value => some value
  | _ => none

def asNat : Value → Option Nat
  | number value => some value
  | _ => none

def asArray : Value → Option (List Value)
  | array items => some items
  | _ => none

def isNull : Value → Bool
  | null => true
  | _ => false

end Value

structure TraceLibrary where
  parseAddress : String → Option Address
  decodeHex : String → Option Bytes

section Read

variable (library : TraceLibrary)

def decodeHexBytes (value : String) : Option Bytes :=
  match value.toList with
  | '0' :: 'x' :: digits => library.decodeHex (String.ofList digits)
  | _ => library.decodeHex value

def hasTraceError (frame : Value) : Bool := (frame.get "error").any fun error => !error.isNull

def traceTarget (frame : Value) : Option Address :=
  (frame.get "to").bind fun target => target.asStr.bind library.parseAddress

def traceInput (frame : Value) : Option Bytes :=
  ((frame.get "input").or (frame.get "data")).bind fun input => input.asStr.bind (decodeHexBytes library)

mutual

/-- A frame of the call tree. Only an object has fields. -/
def traceFrame : Value → TraceFrame
  | .object fields =>
      .call (hasTraceError (.object fields)) (traceTarget library (.object fields))
        (traceInput library (.object fields)) (callFrames fields)
  | _ => .call false none none []

def callFrames : List (String × Value) → List TraceFrame
  | [] => []
  | (key, .array calls) :: rest => if key = "calls" then traceFrames calls else callFrames rest
  | (key, _) :: rest => if key = "calls" then [] else callFrames rest

def traceFrames : List Value → List TraceFrame
  | [] => []
  | frame :: rest => traceFrame frame :: traceFrames rest

end

/-- An entry of the flat list. Its call is the entry itself when there is no `action`. -/
def flatTraceFrame (frame : Value) : FlatTraceFrame where
  failed := hasTraceError frame
  traceAddress := (frame.get "traceAddress").bind fun path => path.asArray.bind fun indexes =>
    indexes.mapM Value.asNat
  target := traceTarget library ((frame.get "action").getD frame)
  input := traceInput library ((frame.get "action").getD frame)

def flatTraceFrames (trace : Value) : List FlatTraceFrame :=
  (trace.asArray.getD []).map (flatTraceFrame library)

end Read

/-! ### Renderings of a call tree -/

structure TraceCall where
  target : Option String
  input : Option String
  error : Option String
  deriving DecidableEq

namespace TraceCall

def field (key : String) (value : Option String) : List (String × Value) :=
  (value.map fun text => (key, Value.string text)).toList

def callFields (call : TraceCall) : List (String × Value) :=
  field "to" call.target ++ field "input" call.input

def failed (call : TraceCall) : Bool := call.error.isSome

end TraceCall

mutual

/-- What `debug_traceTransaction` returns for the tree. -/
def debugRendering : Rose.Tree TraceCall → Value
  | .node call children =>
      .object (call.callFields ++ TraceCall.field "error" call.error
        ++ [("calls", .array (debugRenderings children))])

def debugRenderings : List (Rose.Tree TraceCall) → List Value
  | [] => []
  | child :: rest => debugRendering child :: debugRenderings rest

end

def flatEntry (node : List Nat × TraceCall) : Value :=
  .object ([("action", .object node.2.callFields)] ++ TraceCall.field "error" node.2.error
    ++ [("traceAddress", .array (node.1.map .number))])

/-- What `trace_transaction` returns for the nodes of a tree in some order. -/
def flatRendering (nodes : List (List Nat × TraceCall)) : Value := .array (nodes.map flatEntry)

end RailgunIndexer
