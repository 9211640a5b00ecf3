import Darkroom.Engine.Basic

/-!
# Engines that record what was asked

Every request is recorded before it is met or refused.  Requests can be refused by name, so that a
session can be watched when its engine fails.
-/

namespace Darkroom

/-- A request to an engine. -/
inductive EngineCall where
  /-- A source was to be read. -/
  | read (request : ReadRequest)
  /-- As many images were to be written. -/
  | write (count : Nat) (request : WriteRequest)
  /-- An image was to be worked on. -/
  | transform (image : Image) (op : Transform)
  /-- As many images were to be assembled. -/
  | assemble (count : Nat) (op : Assembly)

/-- The name of a request. -/
def EngineCall.name : EngineCall → String
  | read _ => "read"
  | write .. => "write"
  | transform _ op => op.name
  | assemble _ op => op.name

/-- A world with the requests made so far, the latest first. -/
structure Recorded (σ : Type) where
  /-- The world. -/
  world : σ
  /-- The requests. -/
  calls : List EngineCall := []

/-- The requests that are refused, by name. -/
structure Refusals where
  /-- They run out of memory. -/
  exhausting : List String := []
  /-- They fail. -/
  failing : List String := []

/-- The refusal of a request, if any. -/
def Refusals.find? (refusals : Refusals) (name : String) : Option EngineFault :=
  if refusals.exhausting.contains name then some (.exhausted (name ++ ": memory"))
  else if refusals.failing.contains name then some (.failed (name ++ " failed"))
  else none

namespace Engine

variable {σ : Type}

/-- A request is recorded, and met unless it is refused. -/
def recordCall {α : Type} (refusals : Refusals) (call : EngineCall)
    (meet : σ → Except EngineFault α × σ) (r : Recorded σ) : Except EngineFault α × Recorded σ :=
  let calls := call :: r.calls
  match refusals.find? call.name with
  | some refusal => (.error refusal, { r with calls })
  | none =>
      let (result, world) := meet r.world
      (result, { world, calls })

/-- An engine that records its requests. -/
def recording (engine : Engine σ) (refusals : Refusals) : Engine (Recorded σ) where
  read request := recordCall refusals (.read request) (engine.read request)
  write images request :=
    recordCall refusals (.write images.length request) (engine.write images request)
  transform image op := recordCall refusals (.transform image op) (engine.transform image op)
  assemble images op := recordCall refusals (.assemble images.length op) (engine.assemble images op)
  readText r := engine.readText r.world
  readBytes r := engine.readBytes r.world
  formats := engine.formats
  fonts := engine.fonts

end Engine
end Darkroom
