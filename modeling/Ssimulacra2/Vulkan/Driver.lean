/-
  File:      Ssimulacra2/Vulkan/Driver.lean
  Subject:   The driver under the engine: handles, memory, command buffers and descriptor sets.

  The driver is a ledger. Every call that the engine checks may fail (`attempt`, by the schedule of
  the environment), and a failing call creates nothing. What happens is recorded as a trace of
  events: what was created and released, what was recorded into which command buffer, what was
  executed, which fence was waited for. Handles are never used twice.

  Submitted commands run in the order they were recorded: every dispatch is recorded after a
  barrier. What a shader computes is the environment's `kernel`, from the contents of the bound
  buffers to their new contents. The flags of a buffer (usage, memory properties) only decide
  whether a memory type is found, which is the driver's answer too.
-/
import Ssimulacra2.Primitives
import Ssimulacra2.Lib.Fallible

namespace Ssimulacra2

open Fallible

/-! ## 1. Handles and commands -/

/-- The kinds of handles. -/
inductive Kind where
  | buffer
  | memory
  | cmdBuf
  | fence
  | shaderModule
  | setLayout
  | pipelineLayout
  | pipeline
  | descriptorPool
  deriving DecidableEq

/-- A handle. -/
structure Res where
  kind : Kind
  handle : Nat
  deriving DecidableEq

/-- `GpuBuffer`: a buffer, the memory bound to it and its size in bytes. -/
structure GpuBuffer where
  buffer : Nat
  memory : Nat
  size : Nat
  deriving DecidableEq

/-- The two handles of a buffer. -/
def GpuBuffer.res (b : GpuBuffer) : List Res := [⟨.buffer, b.buffer⟩, ⟨.memory, b.memory⟩]

/-- The embedded shaders of the engine. -/
inductive Shader where
  | downsampleBox2
  | mulPlanes
  | xybPositive
  | mapsCombine
  | blurH
  | blurV
  deriving DecidableEq

/-- A word of push constants. -/
inductive Word (F : Type) where
  | u32 (n : Nat)
  | f32 (x : F)

/-- A descriptor set: its pool and the buffers bound to it. -/
structure DescSet where
  pool : Nat
  handle : Nat
  bufs : List GpuBuffer

/-- What is recorded into a command buffer. Offsets and sizes are bytes. -/
inductive Cmd (F : Type) where
  | copy (src dst : GpuBuffer) (dstOff size : Nat)
  | barrier
  | dispatch (shader : Shader) (push : List (Word F)) (set : DescSet) (groups : Nat × Nat)

/-! ## 2. Errors -/

/-- The driver calls whose result is checked. -/
inductive Call where
  | createBuffer
  | memoryType
  | allocateMemory
  | bindMemory
  | mapMemory
  | invalidate
  | cmdbuf
  | begin
  | finish
  | fence
  | submit
  | wait
  | batchCmdbuf
  | batchBegin
  | batchEnd
  | batchFence
  | batchSubmit
  | batchWait
  | shaderModule
  | setLayout
  | pipelineLayout
  | pipeline
  | descriptorPool
  | resetPool
  | allocSets
  deriving DecidableEq

/-- The text an error of the call starts with. -/
def Call.label : Call → String
  | .createBuffer => "buffer"
  | .memoryType => "no matching memory type"
  | .allocateMemory => "alloc"
  | .bindMemory => "bind"
  | .mapMemory => "map"
  | .invalidate => "invalidate"
  | .cmdbuf => "cmdbuf"
  | .begin => "begin"
  | .finish => "end"
  | .fence => "fence"
  | .submit => "submit"
  | .wait => "wait"
  | .batchCmdbuf => "batch cmdbuf"
  | .batchBegin => "batch begin"
  | .batchEnd => "batch end"
  | .batchFence => "batch fence"
  | .batchSubmit => "batch submit"
  | .batchWait => "batch wait"
  | .shaderModule => "shader module"
  | .setLayout => "dsl"
  | .pipelineLayout => "pipeline layout"
  | .pipeline => "pipeline"
  | .descriptorPool => "dpool"
  | .resetPool => "dpool reset"
  | .allocSets => "dsets"

/-- The errors of the engine. -/
inductive GpuErr where
  | driver (call : Call) (code : String)
  | dispatchLimit (groups maxX : Nat)
  | nestedBatch
  | noBatchOpen
  | panic (text : String)
  deriving DecidableEq

/-- The text of an error. -/
def GpuErr.message : GpuErr → String
  | .driver .memoryType _ => Call.memoryType.label
  | .driver call code => call.label ++ ": " ++ code
  | .dispatchLimit groups maxX =>
      "dispatch of " ++ toString groups ++ " groups exceeds device 2D workgroup limit (" ++
        toString maxX ++ "/65535)"
  | .nestedBatch => "nested batch"
  | .noBatchOpen => "no batch open"
  | .panic text => text

/-! ## 3. Events and states -/

/-- The functions on the call stack that a failing call is recorded with. -/
inductive Fn where
  | createBufferF32
  | blurPlanes
  deriving DecidableEq

/-- What a run of the engine does to the driver. -/
inductive Event (F : Type) where
  | created (r : Res)
  | released (r : Res)
  | failed (call : Call) (stack : List Fn)
  | refused (stack : List Fn)
  | begun (cb : Nat)
  | recorded (cb : Nat) (cmd : Cmd F)
  | ran (cmd : Cmd F)
  | waited (cb : Nat)
  | setFreed (handle : Nat)
  | opened (cb : Nat)
  | closed (cb : Nat)

/-- `PipeObjs`, with the shader its module was built from. -/
structure PipeObjs where
  shm : Nat
  dsl : Nat
  pl : Nat
  pipe : Nat
  pool : Nat
  shader : Shader

def PipeObjs.res (o : PipeObjs) : List Res :=
  [⟨.shaderModule, o.shm⟩, ⟨.setLayout, o.dsl⟩, ⟨.pipelineLayout, o.pl⟩, ⟨.pipeline, o.pipe⟩,
    ⟨.descriptorPool, o.pool⟩]

/-- The key of a cached pipeline: shader bytes, bindings, bytes of push constants. The entry name
    is the shader's. -/
structure Key where
  shader : Shader
  bindings : Nat
  push : Nat
  deriving DecidableEq

/-- `Batch`. The sets are kept one by one, each with its pool. -/
structure Batch where
  cmd : Nat
  sets : List DescSet
  trash : List GpuBuffer

/-- The driver, with the three cells of `VkContext` that change: `staging`, `pipes` and `batch`. -/
structure Sys (F : Type) where
  /-- How many checked calls were made. -/
  tick : Nat
  /-- The next handle. -/
  next : Nat
  /-- How many memory allocations were made. -/
  allocs : Nat
  mem : Nat → List F
  recorded : Nat → List (Cmd F)
  /-- The allocated descriptor sets. -/
  sets : List DescSet
  staging : Option GpuBuffer
  pipes : List (Key × PipeObjs)
  batch : Option Batch

/-- A context without batch, cached pipelines or staging. -/
def Sys.fresh (F : Type) : Sys F where
  tick := 0
  next := 0
  allocs := 0
  mem _ := []
  recorded _ := []
  sets := []
  staging := none
  pipes := []
  batch := none

/-- What a dispatch makes of the contents of the bound buffers: shader, push constants, group
    counts, contents. -/
abbrev Kernel (F : Type) : Type :=
  Shader → List (Word F) → Nat × Nat → List (List F) → List (List F)

/-- What the engine runs on. -/
structure Env (F : Type) where
  /-- The answer to the checked call number `n`; an answer is the code of an error. -/
  sched : Nat → Option String
  /-- The contents of the `n`-th memory allocation before anything is written. -/
  junk : Nat → List F
  kernel : Kernel F
  maxGroupsX : Nat
  /-- `as u32`. -/
  asU32 : Nat → Nat
  stack : List Fn

/-- A call of `fn`. -/
def Env.enter {F : Type} (E : Env F) (fn : Fn) : Env F := { E with stack := fn :: E.stack }

@[simp] theorem Env.enter_kernel {F : Type} (E : Env F) (fn : Fn) :
    (E.enter fn).kernel = E.kernel := rfl

/-- Programs of the engine. -/
abbrev Gpu (F : Type) (α : Type) : Type := Prog (Sys F) GpuErr (Event F) α

/-! ## 4. Memory -/

section Memory

variable {F : Type} [Zero F]

/-- A list cut or filled up to `n` words. -/
def fit (n : Nat) (xs : List F) : List F := (xs ++ List.replicate n 0).take n

/-- `size` bytes of `src` from its start, written into `dst` at a byte offset. -/
def splice (dst src : List F) (dstOff size : Nat) : List F :=
  dst.take (dstOff / 4) ++ src.take (size / 4) ++ dst.drop (dstOff / 4 + size / 4)

/-- One memory. -/
def store (mem : Nat → List F) (m : Nat) (xs : List F) : Nat → List F := Function.update mem m xs

/-- The new contents of the bound buffers, binding by binding. -/
def storeAll (mem : Nat → List F) : List GpuBuffer → List (List F) → Nat → List F
  | b :: bs, xs :: xss => storeAll (store mem b.memory (fit (b.size / 4) xs)) bs xss
  | _, _ => mem

/-- What a command does to the memory. -/
def execCmd (K : Kernel F) (mem : Nat → List F) : Cmd F → Nat → List F
  | .copy src dst dstOff size =>
      store mem dst.memory (splice (mem dst.memory) (mem src.memory) dstOff size)
  | .barrier => mem
  | .dispatch shader push set groups =>
      storeAll mem set.bufs
        (K shader push groups (set.bufs.map fun b => mem b.memory))

/-- Commands in order. -/
def execCmds (K : Kernel F) (mem : Nat → List F) (cmds : List (Cmd F)) : Nat → List F :=
  cmds.foldl (execCmd K) mem

end Memory

/-! ## 5. Driver calls -/

section Calls

variable {F : Type} [Zero F] (E : Env F)

open Prog

/-- A checked call: it counts, and fails when the schedule says so. -/
def attempt (c : Call) : Gpu F Unit := fun s =>
  match E.sched s.tick with
  | none => ⟨.ok (), { s with tick := s.tick + 1 }, []⟩
  | some code => ⟨.error (.driver c code), { s with tick := s.tick + 1 }, [.failed c E.stack]⟩

/-- A new handle. -/
def create (kind : Kind) : Gpu F Nat := fun s =>
  ⟨.ok s.next, { s with next := s.next + 1 }, [.created ⟨kind, s.next⟩]⟩

def release (r : Res) : Gpu F Unit := emit (.released r)

/-- `vkAllocateMemory`: the contents are whatever was there. -/
def createMemory (size : Nat) : Gpu F Nat := do
  let memory ← create .memory
  update fun s => { s with
    allocs := s.allocs + 1
    mem := store s.mem memory (fit (size / 4) (E.junk s.allocs)) }
  pure memory

/-- The host writes the start of a mapped memory. -/
def hostWrite (memory : Nat) (data : List F) : Gpu F Unit :=
  update fun s => { s with
    mem := store s.mem memory (splice (s.mem memory) data 0 (4 * data.length)) }

/-- `vkBeginCommandBuffer`, once it succeeded. -/
def begun (cb : Nat) : Gpu F Unit := do
  update fun s => { s with recorded := Function.update s.recorded cb [] }
  emit (.begun cb)

/-- One of the `vkCmd*` calls. -/
def record (cb : Nat) (c : Cmd F) : Gpu F Unit := do
  update fun s => { s with recorded := Function.update s.recorded cb (s.recorded cb ++ [c]) }
  emit (.recorded cb c)

/-- A submission that went through: the commands run. -/
def execute (cb : Nat) : Gpu F Unit := do
  let cmds ← gets fun s => s.recorded cb
  update fun s => { s with mem := execCmds E.kernel s.mem cmds }
  each (fun c => emit (.ran c)) cmds

/-- `vkAllocateDescriptorSets` and `vkUpdateDescriptorSets`; a pool holds 64 sets. -/
def allocSet (pool : Nat) (bufs : List GpuBuffer) : Gpu F DescSet := do
  attempt E .allocSets
  let used ← gets fun s => (s.sets.filter fun d => d.pool = pool).length
  if 64 ≤ used then fail (.driver .allocSets "ERROR_OUT_OF_POOL_MEMORY")
  else do
    let set ← gets fun s => (⟨pool, s.next, bufs⟩ : DescSet)
    update fun s => { s with next := s.next + 1, sets := s.sets ++ [set] }
    pure set

/-- `vkFreeDescriptorSets` of one set. -/
def freeSet (d : DescSet) : Gpu F Unit := do
  update fun s => { s with sets := s.sets.filter fun d' => d'.handle ≠ d.handle }
  emit (.setFreed d.handle)

/-- `vkResetDescriptorPool`: every set of the pool is freed. -/
def resetPool (pool : Nat) : Gpu F Unit := do
  let mine ← gets fun s => s.sets.filter fun d => d.pool = pool
  update fun s => { s with sets := s.sets.filter fun d => d.pool ≠ pool }
  each (fun d => emit (.setFreed d.handle)) mine

end Calls

end Ssimulacra2
