/-
  File:      Ssimulacra2/Vulkan/Grid.lean
  Subject:   The invocations of a dispatch (`split_groups`, the first line of every `main`).

  `invocations` lists what the device starts for a pair of group counts, `flatIndex` is the index
  each of them computes in 32-bit arithmetic. Row by row these are the words of `0, 1, 2, …`
  (`flat_invocations`), so a grid of at most `2 ^ 32` invocations meets no index twice; the grid
  `splitGroups` makes for at most `2 ^ 30` elements is that small (`grid_lt`).
-/
import Ssimulacra2.Vulkan.Bounds
import Ssimulacra2.Vulkan.NoWrap

namespace Ssimulacra2

open Fallible

/-! ## 1. Invocations -/

/-- `gl_GlobalInvocationID`. -/
structure Invocation where
  x : UInt32
  y : UInt32

/-- The invocations of a dispatch in groups of 64 by 1: `x` is
    `gl_WorkGroupID.x * gl_WorkGroupSize.x + gl_LocalInvocationID.x`. -/
def invocations (groups : Nat × Nat) : List Invocation :=
  (List.range groups.2).flatMap fun row => (List.range groups.1).flatMap fun group =>
    (List.range 64).map fun lane =>
      ⟨UInt32.ofNat group * 64 + UInt32.ofNat lane, UInt32.ofNat row⟩

/-- `gl_GlobalInvocationID.y * (gl_NumWorkGroups.x * gl_WorkGroupSize.x) + gl_GlobalInvocationID.x`. -/
def flatIndex (groups : Nat × Nat) (v : Invocation) : UInt32 :=
  v.y * (UInt32.ofNat groups.1 * 64) + v.x

/-- **The flat indices of a dispatch**, in order. -/
theorem flat_invocations (groups : Nat × Nat) :
    (invocations groups).map (flatIndex groups) =
      (List.range (Shader.grid groups)).map UInt32.ofNat := by
  have hflat (row group lane : Nat) :
      flatIndex groups ⟨UInt32.ofNat group * 64 + UInt32.ofNat lane, UInt32.ofNat row⟩ =
        UInt32.ofNat (row * (groups.1 * 64) + (group * 64 + lane)) := by
    simp only [UInt32.ofNat_add, UInt32.ofNat_mul]
    rfl
  have hgrid : Shader.grid groups = groups.2 * (groups.1 * 64) := Nat.mul_comm _ _
  rw [hgrid, ← Lists.range_rows groups.2 (groups.1 * 64), ← Lists.range_rows groups.1 64]
  unfold invocations
  simp only [List.map_flatMap, List.map_map, Function.comp_def, hflat]

/-- Below `2 ^ 32` every index is met once. -/
theorem count_flat {groups : Nat × Nat} (hgrid : Shader.grid groups ≤ 2 ^ 32) {i : Nat}
    (hi : i < Shader.grid groups) :
    ((invocations groups).map (flatIndex groups)).count (UInt32.ofNat i) = 1 := by
  rw [flat_invocations]
  refine List.count_eq_one_of_mem (List.Nodup.map_on (fun a ha b hb hab => ?_) List.nodup_range)
    (List.mem_map_of_mem (List.mem_range.mpr hi))
  have h := congrArg UInt32.toNat hab
  rw [List.mem_range] at ha hb
  rwa [Words.toNat_ofNat (by omega), Words.toNat_ofNat (by omega)] at h

/-! ## 2. The grids of the engine -/

/-- A grid that covers `T` elements exactly once, on a device of at most `maxX` groups a row. -/
structure CoversOnce (maxX T : Nat) (groups : Nat × Nat) : Prop where
  row : groups.1 ≤ max maxX 1
  rows : groups.2 ≤ 65535
  once : ∀ i < T, ((invocations groups).map (flatIndex groups)).count (UInt32.ofNat i) = 1

/-- **The size of a grid**: less than a row and a group past the last element. -/
theorem grid_lt {T : Nat} (hT : T ≤ 2 ^ 30) (maxX : Nat) :
    Shader.grid (splitGroups (groupsOf T) maxX) < 2 ^ 32 := by
  have hgroups : groupsOf T ≤ 2 ^ 24 := by
    unfold groupsOf
    omega
  unfold Shader.grid splitGroups
  dsimp only
  generalize hg : max (min (groupsOf T) (max maxX 1)) 1 = gx
  have hgx : gx ≤ 2 ^ 24 := by omega
  have hrows := Nat.div_mul_le_self (groupsOf T + gx - 1) gx
  calc gx * 64 * ((groupsOf T + gx - 1) / gx) =
        64 * ((groupsOf T + gx - 1) / gx * gx) := by ring
    _ ≤ 64 * (groupsOf T + gx - 1) := Nat.mul_le_mul_left _ hrows
    _ < 2 ^ 32 := by omega

theorem splitGroups_covers {T : Nat} (hT : T ≤ 2 ^ 30) {maxX : Nat}
    (hrows : ¬ (splitGroups (groupsOf T) maxX).2 > 65535) :
    CoversOnce maxX T (splitGroups (groupsOf T) maxX) where
  row := by
    unfold splitGroups
    dsimp only
    omega
  rows := Nat.le_of_not_gt hrows
  once i hi := count_flat (grid_lt hT maxX).le (hi.trans_le (Shader.grid_covers T maxX))

variable {F : Type} [Zero F] (E : Env F)

/-- **A dispatch is refused or covers its elements once.** -/
theorem runComputePush_covers {T : Nat} (hT : T ≤ 2 ^ 30) (shader : Shader) (bufs : List GpuBuffer)
    (push : List (Word F)) (s : Sys F) :
    (runComputePush E shader bufs (groupsOf T) push s).result =
        .error (.dispatchLimit (groupsOf T) E.maxGroupsX) ∨
      CoversOnce E.maxGroupsX T (splitGroups (groupsOf T) E.maxGroupsX) := by
  by_cases h : (splitGroups (groupsOf T) E.maxGroupsX).2 > 65535
  · left
    unfold runComputePush
    simp only [if_pos h]
    rfl
  · exact .inr (splitGroups_covers hT h)

end Ssimulacra2
