/-
# The life of a computation

| call | allowed from | leads to |
| :-- | :-- | :-- |
| `allocate` | unallocated | allocated, or nothing is kept |
| `populate` | allocated | populated |
| `run` | populated, ready | ready, when it succeeds |
| `replace` | allocated, populated, ready | the same |
| `release` | anywhere | released |

`allocate` and `populate` do nothing when their work is already done.  After
release every call but `release` is an error.
-/
import TensorGraph.Computation.Basic
import TensorGraph.Device
import TensorGraph.Kernel.Populate
import TensorGraph.Tensor

namespace TensorGraph.Computation

variable {α δ : Type}

/-- The error of a call after release. -/
def releasedError : Error := .released "computation"

/-! ## Allocation -/

/-- Gives storage back, each with the buffer that it was asked for. -/
def giveBack [Device δ α] (device : δ) (held : List (Buffer × Storage α)) : δ :=
  held.foldl (fun device (b, s) => Device.free device b s) device

/-- Asks for the storage of the given buffers in order.  When one is refused or
too short, it and everything held so far go back. -/
def acquire [Device δ α] (device : δ) (held : List (Buffer × Storage α)) :
    List Buffer → δ × Except Error (List (Buffer × Storage α))
  | [] => (device, .ok held)
  | b :: rest =>
    match Device.allocate device b with
    | (device, .error error) => (giveBack device held, .error error)
    | (device, .ok s) =>
      if b.elements ≤ s.size then acquire device (held ++ [(b, s)]) rest
      else
        (giveBack (Device.free device b s) held,
          .error (.allocation b.name (.shortStorage s.size b.elements)))

/-- Asks the device for the storage of every buffer. -/
def allocate [Device δ α] (c : Computation α) (device : δ) :
    Computation α × δ × Except Error Unit :=
  match c.phase with
  | .released => (c, device, .error releasedError)
  | .unallocated =>
    match acquire device [] c.plan.buffers.toList with
    | (device, .error error) => (c, device, .error error)
    | (device, .ok held) =>
      ({ c with memory := (held.map (·.2)).toArray, phase := .allocated }, device, .ok ())
  | _ => (c, device, .ok ())

/-! ## Population -/

/-- Puts a literal or an initial value in its place. -/
def preset [Element α] (seed : UInt64) (m : Memory α) (p : Preset α) : Memory α :=
  match p.op with
  | .constant _ values => m.write p.output (Kernel.literal values (m.block p.output))
  | .persistent _ init =>
    m.write p.output (Kernel.populate init (Kernel.streamSeed seed p.node) (m.block p.output))
  | _ => m

/-- Puts literals and initial values in place. -/
def populate [Element α] (c : Computation α) : Computation α × Except Error Unit :=
  match c.phase with
  | .released => (c, .error releasedError)
  | .unallocated => (c, .error (.notReady .initBeforeAllocate))
  | .allocated =>
    ({ c with memory := c.presets.foldl (preset c.seed) c.memory, phase := .populated }, .ok ())
  | _ => (c, .ok ())

/-! ## Runs -/

/-- An input has the shape of its parameter. -/
def checkInput (c : Computation α) (entry : NodeId × Tensor α) : Except Error Unit := do
  let (id, input) := entry
  let place ← c.plan.placement id
  if input.shape ≠ place.layout.shape then
    .error (.shape "compute" (.inputShape id input.shape place.layout.shape))

/-- There is one input per parameter, and each has its shape. -/
def checkInputs (c : Computation α) (inputs : List (Tensor α)) : Except Error Unit := do
  if inputs.length ≠ c.plan.parameters.length then
    .error (.shape "compute" (.inputCount c.plan.parameters.length inputs.length))
  (c.plan.parameters.zip inputs).forM c.checkInput

/-- Puts an input in the place of its parameter. -/
def load (p : Plan) (m : Memory α) (entry : NodeId × Tensor α) : Memory α :=
  match p.placements.get? entry.1 with
  | some place => m.write place entry.2.data
  | none => m

/-- The value of an output. -/
def readOutput [Element α] (p : Plan) (m : Memory α) (id : NodeId) : Except Error (Tensor α) := do
  let place ← p.placement id
  Tensor.ofData? place.layout.shape (m.view place).elements

/-- Runs all steps on the given inputs, waits for the device and reads the
outputs.  An error leaves the phase as it was. -/
def execute [Element α] [Device δ α] (c : Computation α) (device : δ) (inputs : List (Tensor α)) :
    Computation α × δ × Except Error (List (Tensor α)) :=
  match c.checkInputs inputs with
  | .error error => (c, device, .error error)
  | .ok () =>
    let loaded := (c.plan.parameters.zip inputs).foldl (load c.plan) c.memory
    match Step.runAll c.steps loaded with
    | (memory, some error) => ({ c with memory }, device, .error error)
    | (memory, none) =>
      match Device.synchronize device with
      | (device, .error error) => ({ c with memory }, device, .error error)
      | (device, .ok ()) =>
        match c.plan.outputs.mapM (readOutput c.plan memory) with
        | .error error => ({ c with memory }, device, .error error)
        | .ok outputs => ({ c with memory, phase := .ready }, device, .ok outputs)

/-- Runs the computation on one tensor per parameter. -/
def run [Element α] [Device δ α] (c : Computation α) (device : δ) (inputs : List (Tensor α)) :
    Computation α × δ × Except Error (List (Tensor α)) :=
  match c.phase with
  | .released => (c, device, .error releasedError)
  | .unallocated => (c, device, .error (.notReady .computeBeforeInit))
  | .allocated => (c, device, .error (.notReady .computeBeforeInit))
  | .populated => c.execute device inputs
  | .ready => c.execute device inputs

/-! ## Replacement and release -/

/-- Puts other storage behind the first buffer of the given name, if it is long
enough, and answers with the storage that was there. -/
def exchange (c : Computation α) (name : String) (s : Storage α) :
    Computation α × Except Error (Storage α) :=
  match c.plan.buffers.findIdx? (·.name == name) with
  | none => (c, .error (.allocation name .noSuchBuffer))
  | some i =>
    let needed := (c.plan.buffer i).elements
    if s.size < needed then (c, .error (.allocation name (.shortReplacement s.size needed)))
    else ({ c with memory := c.memory.setIfInBounds i s }, .ok (c.memory.storage i))

/-- Replaces the storage behind a buffer. -/
def replace (c : Computation α) (name : String) (s : Storage α) :
    Computation α × Except Error (Storage α) :=
  match c.phase with
  | .released => (c, .error releasedError)
  | .unallocated => (c, .error (.notReady (.updateBeforeAllocate name)))
  | _ => c.exchange name s

/-- Gives all storage back.  A second release does nothing. -/
def release [Device δ α] (c : Computation α) (device : δ) : Computation α × δ :=
  if c.phase = .released then (c, device)
  else
    ({ c with memory := #[], phase := .released },
      giveBack device (c.plan.buffers.toList.zip c.memory.toList))

end TensorGraph.Computation
