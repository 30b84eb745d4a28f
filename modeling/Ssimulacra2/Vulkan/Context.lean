/-
  File:      Ssimulacra2/Vulkan/Context.lean
  Subject:   The compute context (`context.rs`) and the dispatch (`pipeline.rs`).

  Buffers, uploads and readbacks, the one-shot submission and the batch. While a batch is open an
  upload and a dispatch only record, and `destroyBuffer` defers to the batch's trash;
  `finishBatch` takes the batch, runs its commands when it is to be submitted, and releases on
  every path what the batch holds. A `BatchGuard` of the engine is an `onError` around what runs
  while it is armed. The locks are not modelled: one thread, never poisoned.
-/
import Ssimulacra2.Vulkan.Driver

namespace Ssimulacra2

open Fallible Prog

variable {F : Type} [Zero F] (E : Env F)

/-! ## 1. Buffers -/

/-- `alloc_buffer`. -/
def allocBuffer (size : Nat) : Gpu F GpuBuffer := do
  attempt E .createBuffer
  let buffer ← create .buffer
  attempt E .memoryType
  attempt E .allocateMemory
  let memory ← createMemory E size
  attempt E .bindMemory
  pure ⟨buffer, memory, size⟩

/-- `destroy_buffer_now`. -/
def destroyBufferNow (b : GpuBuffer) : Gpu F Unit := do
  release ⟨.buffer, b.buffer⟩
  release ⟨.memory, b.memory⟩

/-- `batch_trash`, with its answer. -/
def batchTrash (b : GpuBuffer) : Gpu F Bool := do
  let batch ← gets fun s => s.batch
  match batch with
  | some st => do
      update fun s => { s with batch := some { st with trash := st.trash ++ [b] } }
      pure true
  | none => pure false

/-- `destroy_buffer`. -/
def destroyBuffer (b : GpuBuffer) : Gpu F Unit := do
  let deferred ← batchTrash b
  if deferred then pure () else destroyBufferNow b

/-- `batch_cmd`. -/
def batchCmd : Gpu F (Option Nat) := gets fun s => s.batch.map Batch.cmd

/-- `create_empty`. -/
def createEmpty (len : Nat) : Gpu F GpuBuffer := allocBuffer E (len * 4)

/-! ## 2. One submission -/

/-- Fence, submit, wait: the same steps in `one_shot` and `finish_batch`, under the names of their
    errors. The fence is destroyed on every path. -/
def submitWait (fenceCall submitCall waitCall : Call) (cb : Nat) : Gpu F Unit := do
  attempt E fenceCall
  let fence ← create .fence
  ensure (release ⟨.fence, fence⟩) do
    attempt E submitCall
    execute E cb
    attempt E waitCall
    emit (.waited cb)

/-- `one_shot`: the command buffer is freed on every path. -/
def oneShot (cmds : List (Cmd F)) : Gpu F Unit := do
  attempt E .cmdbuf
  let cb ← create .cmdBuf
  ensure (release ⟨.cmdBuf, cb⟩) do
    attempt E .begin
    begun cb
    each (record cb) cmds
    attempt E .finish
    submitWait E .fence .submit .wait cb

/-- `create_buffer_f32`: the flag says that the staging buffer went to an open batch. -/
def createBufferF32 (data : List F) : Gpu F GpuBuffer := do
  let E := E.enter .createBufferF32
  let bytes := 4 * data.length
  let staging ← allocBuffer E bytes
  let built ← observe do
    attempt E .mapMemory
    hostWrite staging.memory data
    let dev ← allocBuffer E bytes
    let cmd ← batchCmd
    match cmd with
    | some cmd => do
        record cmd (.copy staging dev 0 bytes)
        let _ ← batchTrash staging
        pure (dev, true)
    | none => do
        oneShot E [.copy staging dev 0 bytes]
        pure (dev, false)
  match built with
  | .ok (dev, true) => pure dev
  | .ok (dev, false) => do
      destroyBufferNow staging
      pure dev
  | .error e => do
      destroyBufferNow staging
      fail e

/-! ## 3. Readback -/

/-- A staging buffer in the place of the cached one; the second allocation is the fallback to
    coherent memory. -/
def newStaging (total : Nat) : Gpu F GpuBuffer := do
  let first ← observe (allocBuffer E total)
  let staging ← match first with
    | .ok b => (pure b : Gpu F GpuBuffer)
    | .error _ => allocBuffer E total
  update fun s => { s with staging := some staging }
  pure staging

/-- The staging buffer of a readback of `total` bytes: the cached one, or a larger one. -/
def readbackStaging (total : Nat) : Gpu F GpuBuffer := do
  let cached ← gets fun s => s.staging
  match cached with
  | some s =>
      if s.size < total then do
        update fun s => { s with staging := none }
        destroyBufferNow s
        newStaging E total
      else pure s
  | none => newStaging E total

/-- The copies of a readback, each behind the one before. -/
def readbackCopies (staging : GpuBuffer) : Nat → List GpuBuffer → List (Cmd F)
  | _, [] => []
  | off, b :: bs => .copy b staging off b.size :: readbackCopies staging (off + b.size) bs

/-- The words of the buffers, from the start of the mapped staging memory. -/
def readbackWords (words : List F) : Nat → List GpuBuffer → List (List F)
  | _, [] => []
  | off, b :: bs =>
      (words.drop (off / 4)).take (b.size / 4) :: readbackWords words (off + b.size) bs

/-- `readback_f32_all`. -/
def readbackF32All (bufs : List GpuBuffer) : Gpu F (List (List F)) := do
  let total := (bufs.map GpuBuffer.size).sum
  let staging ← readbackStaging E total
  oneShot E (readbackCopies staging 0 bufs)
  attempt E .mapMemory
  attempt E .invalidate
  gets fun s => readbackWords (s.mem staging.memory) 0 bufs

/-! ## 4. The batch -/

/-- `begin_batch`. -/
def beginBatch : Gpu F Unit := do
  attempt E .batchCmdbuf
  let cb ← create .cmdBuf
  attempt E .batchBegin
  begun cb
  let batch ← gets fun s => s.batch
  if batch.isSome then fail .nestedBatch
  else do
    update fun s => { s with batch := some ⟨cb, [], []⟩ }
    emit (.opened cb)

/-- `take()` of the batch. -/
def takeBatch : Gpu F Batch := do
  let batch ← gets fun s => s.batch
  match batch with
  | some st => do
      update fun s => { s with batch := none }
      emit (.closed st.cmd)
      pure st
  | none => fail .noBatchOpen

/-- What `finish_batch` releases at its end. -/
def releaseBatch (st : Batch) : Gpu F Unit := do
  each freeSet st.sets
  each destroyBufferNow st.trash
  release ⟨.cmdBuf, st.cmd⟩

/-- `finish_batch`. -/
def finishBatch (submit : Bool) : Gpu F Unit := do
  let st ← takeBatch
  ensure (releaseBatch st) do
    attempt E .batchEnd
    if submit then submitWait E .batchFence .batchSubmit .batchWait st.cmd else pure ()

/-- `end_batch`. -/
def endBatch : Gpu F Unit := finishBatch E true

/-- `abort_batch`. -/
def abortBatch : Gpu F Unit := finishBatch E false

/-- `batch_track_sets`. -/
def batchTrackSets (set : DescSet) : Gpu F Unit := do
  let batch ← gets fun s => s.batch
  match batch with
  | some st => update fun s => { s with batch := some { st with sets := st.sets ++ [set] } }
  | none => pure ()

/-! ## 5. Guards -/

/-- Programs that own buffers: a `BufGuard` or a `PrepImage` under construction. -/
abbrev Guarded (F : Type) (α : Type) : Type := Owning GpuBuffer (Sys F) GpuErr (Event F) α

/-- What runs while a `BatchGuard` is armed: the pass and `end_batch`. -/
def armedBatch {α : Type} (pass : Guarded F α) : Guarded F α := do
  lift (beginBatch E)
  onError (lift (abortBatch E)) do
    let a ← pass
    lift (endBatch E)
    pure a

/-- `let _ = ctx.abort_batch(); return Err(e)` around a pass, inside an armed guard. -/
def abortOnError {α : Type} (pass : Guarded F α) : Guarded F α := onError (lift (abortBatch E)) pass

/-! ## 6. Dispatches -/

/-- `split_groups`. -/
def splitGroups (groupsX maxX : Nat) : Nat × Nat :=
  let gx := max (min groupsX (max maxX 1)) 1
  (gx, (groupsX + gx - 1) / gx)

/-- The handles of a new pipeline; `PassRes` destroys what exists when a step fails. -/
def buildPipe (shader : Shader) : Gpu F PipeObjs := do
  attempt E .shaderModule
  let shm ← create .shaderModule
  onError (release ⟨.shaderModule, shm⟩) do
    attempt E .setLayout
    let dsl ← create .setLayout
    onError (release ⟨.setLayout, dsl⟩) do
      attempt E .pipelineLayout
      let pl ← create .pipelineLayout
      onError (release ⟨.pipelineLayout, pl⟩) do
        attempt E .pipeline
        let pipe ← create .pipeline
        onError (release ⟨.pipeline, pipe⟩) do
          attempt E .descriptorPool
          let pool ← create .descriptorPool
          pure ⟨shm, dsl, pl, pipe, pool, shader⟩

/-- The cached pipeline of a key, built on first use. -/
def getPipe (key : Key) : Gpu F PipeObjs := do
  let cached ← gets fun s => s.pipes.lookup key
  match cached with
  | some objs => pure objs
  | none => do
      let objs ← buildPipe E key.shader
      update fun s => { s with pipes := (key, objs) :: s.pipes }
      pure objs

/-- The commands of a dispatch: a barrier, then the dispatch itself. -/
def dispatchCmds (objs : PipeObjs) (push : List (Word F)) (set : DescSet) (groups : Nat × Nat) :
    List (Cmd F) := [.barrier, .dispatch objs.shader push set groups]

/-- `run_compute_push`. -/
def runComputePush (shader : Shader) (bufs : List GpuBuffer) (groupsX : Nat)
    (push : List (Word F)) : Gpu F Unit := do
  let groups := splitGroups groupsX E.maxGroupsX
  if groups.2 > 65535 then do
    emit (.refused E.stack)
    fail (.dispatchLimit groupsX E.maxGroupsX)
  else do
    let objs ← getPipe E ⟨shader, bufs.length, 4 * push.length⟩
    let batch ← batchCmd
    match batch with
    | some cmd => do
        let set ← allocSet E objs.pool bufs
        each (record cmd) (dispatchCmds objs push set groups)
        batchTrackSets set
    | none => do
        attempt E .resetPool
        resetPool objs.pool
        let set ← allocSet E objs.pool bufs
        oneShot E (dispatchCmds objs push set groups)

/-! ## 7. The end of the context -/

/-- The handles of a cached pipeline are destroyed in this order. -/
def destroyPipe (o : PipeObjs) : Gpu F Unit := do
  release ⟨.descriptorPool, o.pool⟩
  release ⟨.pipeline, o.pipe⟩
  release ⟨.pipelineLayout, o.pl⟩
  release ⟨.setLayout, o.dsl⟩
  release ⟨.shaderModule, o.shm⟩

/-- The `drop` of the context: the cached pipelines and the staging buffer. The pipeline cache, the
    command pool, the device and the instance are not modelled. -/
def dropContext : Gpu F Unit := do
  let pipes ← gets fun s => s.pipes
  update fun s => { s with pipes := [] }
  each destroyPipe (pipes.map Prod.snd)
  let staging ← gets fun s => s.staging
  match staging with
  | some b => do
      update fun s => { s with staging := none }
      destroyBufferNow b
  | none => pure ()

end Ssimulacra2
