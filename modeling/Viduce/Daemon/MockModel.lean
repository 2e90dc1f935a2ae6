/-
The mock model of the test suite (`testing/mock_model.py`). All its tensors are zero, so a temporal tile carries no
information and is modelled by `Unit`: the encoders return three tiles, the velocity of a stack is a stack of the same
height, and the VAE decodes n tiles to 20 n frames of three channels, 32 by 32 (8 times the 4 by 4 latents).
-/
import Mathlib.Tactic
import Viduce.Daemon.ChunkStep

namespace Viduce.SessionRunner

/-- `MockVAE.decode` -/
def mockDecode (xt : List Unit) : Tensor ℚ := ⟨[20 * xt.length, 3, 4 * 8, 4 * 8], fun _ => 0⟩

/-- `MockModel` -/
def mockModel : Precond Unit where
  lqEncode _ := List.replicate 3 ()
  mskEncode _ := List.replicate 3 ()
  predictV xt _ _ _ := xt
  vae := .spatialTiledEncoder3D mockDecode
  latentSize _ := (4, 4)

theorem mockModel_ok (frame : List ℕ) : mockModel.Ok frame 3 32 32 where
  lq_tiles _ _ := rfl
  predict_tiles _ _ _ _ := rfl
  decodes _ _ := rfl

/-- an environment in which nothing raises -/
def quiet : Env Unit := ⟨fun _ => none, fun _ _ => ()⟩

/-- an environment in which one point runs out of memory -/
def oomAt (st : Stage) : Env Unit :=
  ⟨fun p => if p = st then some ⟨.outOfMemoryError, "CUDA out of memory."⟩ else none, fun _ _ => ()⟩

/-- one keyframe, 32 by 32 -/
def frame32 : Tensor UInt8 := ⟨[1, 3, 32, 32], fun _ => 0⟩

theorem staged_frame32 : Staged frame32 32 32 := ⟨1, 3, rfl, by decide⟩

theorem denoises_quiet (n : ℕ) : quiet.Denoises n := ⟨rfl, rfl, fun _ _ => rfl⟩

end Viduce.SessionRunner
