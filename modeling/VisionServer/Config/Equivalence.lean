/-
This file compares the legacy loader with its documented replacement.
-/

import VisionServer.Config.Loader

namespace VisionServer.Config
open Library Camera

variable {Scalar : Type} (env : Environment Scalar)

/-- Both copies of the mode selection issue the same calls on every path. -/
theorem selectMode_eq (file : String) (j : Json) :
    readConfig.selectMode env file j = initNT.selectMode env file j := rfl

/-- Both copies of the loop body append the same camera. -/
theorem addCamera_eq (file : String) (j camera : Json) :
    readConfig.addCamera env file j camera = createCameras.addCamera env file j camera := rfl

/-- Both copies of the camera loop run through the same entries. -/
theorem addCameras_eq (file : String) (j : Json) :
    readConfig.addCameras env file j = createCameras.addCameras env file j := by
  have bodies : readConfig.addCamera env file j = createCameras.addCamera env file j :=
    funext (addCamera_eq env file j)
  rw [readConfig.addCameras, createCameras.addCameras, bodies]

/-- A file without an object is refused before any other effect. -/
theorem loadJson_cases (file : String) :
    (∃ j, j.isObject = true ∧ env.files file = .value j ∧ loadJson env file = pure (some j)) ∨
      (∃ line, loadJson env file = errs line >>= fun _ => pure none) ∨
      ∃ e, loadJson env file = throw e := by
  unfold loadJson
  cases content : env.files file with
  | unreadable message => exact .inr (.inl ⟨_, rfl⟩)
  | malformed e => exact .inr (.inl ⟨_, rfl⟩)
  | overflowing e => exact .inr (.inr ⟨e, rfl⟩)
  | value j =>
      cases object : j.isObject with
      | true => exact .inl ⟨j, object, rfl, by simp [object]⟩
      | false => exact .inr (.inl ⟨_, by simp [object]; rfl⟩)

/-- The documented replacement calls `createCameras` only after `initNT` has returned true. -/
def initAndCreate (file : String) : Loader Scalar Bool := do
  if ← initNT env file then createCameras env file else return false

/-- The legacy loader and its replacement agree in their result and in every effect: the boolean,
the cameras vector, the network tables calls and the reported lines. -/
theorem readConfig_eq_initAndCreate (file : String) (world : World Scalar) :
    (readConfig env file).run world = (initAndCreate env file).run world := by
  unfold initAndCreate initNT createCameras readConfig
  obtain ⟨j, _, _, loaded⟩ | ⟨line, loaded⟩ | ⟨e, loaded⟩ := loadJson_cases env file
  · simp only [loaded, pure_bind, selectMode_eq, addCameras_eq]
  · simp only [loaded, bind_assoc, pure_bind]
    rfl
  · rw [loaded]
    rfl

end VisionServer.Config
