/-
This file determines when a failed start-up has left the network tables alone.
-/

import VisionServer.Config.Equivalence

namespace VisionServer.Config
open Library Camera

variable {Scalar : Type} (env : Environment Scalar)

/-- A call that returns false has started no client and no server and has set no server or team. -/
def FailsQuietly (load : Loader Scalar Bool) (world : World Scalar) : Prop :=
  ∀ after, load.run world = .ok false after →
    ∃ reported, after.effects = world.effects ++ reported ∧
      ∀ call, Effect.network call ∉ reported

/-- The object asks for the client mode and has no value that reads as a team number. -/
structure LacksTeam (j : Json) : Prop where
  client : ∃ str, j.atKey "ntmode" = .ok (.string str) ∧ equalsLower str "client" = true
  team : ∀ team, (j.atKey "team" >>= Json.getUnsigned) ≠ .ok team

/-- The file holds an object that asks for the client mode without a team number. -/
def FileLacksTeam (file : String) : Prop :=
  ∃ j, env.files file = .value j ∧ j.isObject = true ∧ LacksTeam j

/-- A value that reads as a string is a string. -/
theorem string_of_getString {read : Except JsonException Json} {str : String}
    (found : read >>= Json.getString = .ok str) : read = .ok (.string str) := by
  cases read with
  | error e => cases found
  | ok value =>
      cases value with
      | string text =>
          cases found
          rfl
      | _ => cases found

@[simp] theorem run_emit (effect : Effect) (world : World Scalar) :
    (emit effect : Loader Scalar Unit).run world =
      .ok () { world with effects := world.effects ++ [effect] } := rfl

/-- An object without a team number is refused after the client has been started. -/
theorem selectMode_lacksTeam (file : String) {j : Json} (lacks : LacksTeam j)
    (world : World Scalar) :
    ∃ e : JsonException, (initNT.selectMode env file j).run world = .ok false { world with
      effects := world.effects ++ [.outs "Setting up NetworkTables in CLIENT mode",
        .network (startClient env),
        .errs ("Config error in " ++ file ++ ": could not read team number: " ++ e.what)] } := by
  obtain ⟨str, found, client⟩ := lacks.client
  have counted : j.count "ntmode" ≠ 0 :=
    Nat.pos_iff_ne_zero.mp ((Json.count_pos_iff j "ntmode").mpr ⟨_, found⟩)
  have read : ((Except.ok (Json.string str) : Except JsonException Json) >>= Json.getString) =
      .ok str := rfl
  cases team : j.atKey "team" >>= Json.getUnsigned with
  | ok number => exact absurd team (lacks.team number)
  | error e =>
      refine ⟨e, ?_⟩
      rw [initNT.selectMode, if_pos counted, found, read, team]
      simp only [run_tryCatch, EStateM.run_bind, run_liftExcept_ok, run_liftExcept_error, client,
        if_true, outs, network, errs, run_emit, EStateM.run_pure, List.append_assoc,
        List.cons_append, List.nil_append]

/-- Every other object starts with success. -/
theorem selectMode_succeeds (file : String) {j : Json} (keeps : ¬ LacksTeam j)
    (world : World Scalar) :
    ∃ after, (initNT.selectMode env file j).run world = .ok true after := by
  unfold initNT.selectMode
  by_cases counted : j.count "ntmode" ≠ 0
  · rw [if_pos counted]
    cases mode : j.atKey "ntmode" >>= Json.getString with
    | error e => exact ⟨_, rfl⟩
    | ok str =>
        by_cases client : equalsLower str "client" = true
        · cases team : j.atKey "team" >>= Json.getUnsigned with
          | ok number =>
              simp only [run_tryCatch, EStateM.run_bind, run_liftExcept_ok, client, if_true]
              exact ⟨_, rfl⟩
          | error e =>
              have lacks : LacksTeam j :=
                ⟨⟨str, string_of_getString mode, client⟩, fun number read => by
                  rw [team] at read
                  cases read⟩
              exact absurd lacks keeps
        · by_cases server : equalsLower str "server" = true
          · simp only [run_tryCatch, EStateM.run_bind, run_liftExcept_ok, client, server, if_true]
            exact ⟨_, rfl⟩
          · simp only [run_tryCatch, EStateM.run_bind, run_liftExcept_ok, client, server]
            exact ⟨_, rfl⟩
  · rw [if_neg counted]
    exact ⟨world, rfl⟩

/-- The legacy loader reads the cameras only after the mode has been selected. -/
def readConfig.start (file : String) (j : Json) : Loader Scalar Bool := do
  if ← readConfig.selectMode env file j then
    readConfig.addCameras env file j
    return true
  else return false

/-- The camera part of the legacy loader never ends with an exception. -/
theorem readConfig_addCameras_total (file : String) (j : Json) :
    Total (readConfig.addCameras env file j : Loader Scalar Unit) := by
  unfold readConfig.addCameras
  split
  · exact fun world => ⟨(), _, rfl⟩
  · exact Total.tryCatch _ fun e world => ⟨(), _, rfl⟩

theorem readConfigStart_lacksTeam (file : String) {j : Json} (lacks : LacksTeam j)
    (world : World Scalar) :
    ∃ e : JsonException, (readConfig.start env file j).run world = .ok false { world with
      effects := world.effects ++ [.outs "Setting up NetworkTables in CLIENT mode",
        .network (startClient env),
        .errs ("Config error in " ++ file ++ ": could not read team number: " ++ e.what)] } := by
  obtain ⟨e, done⟩ := selectMode_lacksTeam env file lacks world
  refine ⟨e, ?_⟩
  rw [readConfig.start, selectMode_eq, run_bind_of_ok done]
  rfl

theorem readConfigStart_succeeds (file : String) {j : Json} (keeps : ¬ LacksTeam j)
    (world : World Scalar) :
    ∃ after, (readConfig.start env file j).run world = .ok true after := by
  obtain ⟨middle, done⟩ := selectMode_succeeds env file keeps world
  obtain ⟨value, after, added⟩ := readConfig_addCameras_total env file j middle
  refine ⟨after, ?_⟩
  rw [readConfig.start, selectMode_eq, run_bind_of_ok done, if_pos rfl, run_bind_of_ok added]
  rfl

/-- A call that starts with the loaded object fails quietly when its object part does. -/
theorem failsQuietly_iff_of_start {file : String} {start : Json → Loader Scalar Bool}
    {world : World Scalar}
    (lacking : ∀ j, LacksTeam j → ∃ e : JsonException, (start j).run world = .ok false { world with
      effects := world.effects ++ [.outs "Setting up NetworkTables in CLIENT mode",
        .network (startClient env),
        .errs ("Config error in " ++ file ++ ": could not read team number: " ++ e.what)] })
    (keeping : ∀ j, ¬ LacksTeam j → ∃ after, (start j).run world = .ok true after) :
    FailsQuietly (loadJson env file >>= fun loaded => match loaded with
      | none => pure false
      | some j => start j) world ↔ ¬ FileLacksTeam env file := by
  constructor
  · intro quiet lacksFile
    obtain ⟨j, content, object, lacks⟩ := lacksFile
    have opened : loadJson env file = pure (some j) := by
      rw [loadJson, content]
      simp [object]
    obtain ⟨e, failed⟩ := lacking j lacks
    obtain ⟨reported, appended, silent⟩ := quiet _ (by
      rw [opened, pure_bind]
      exact failed)
    have same := List.append_cancel_left appended
    exact silent (startClient env) (same ▸ by simp)
  · intro complete after failed
    obtain ⟨j, object, content, loaded⟩ | ⟨line, loaded⟩ | ⟨e, loaded⟩ := loadJson_cases env file
    · rw [loaded, pure_bind] at failed
      obtain ⟨final, succeeded⟩ :=
        keeping j fun lacks => complete ⟨j, content, object, lacks⟩
      rw [succeeded] at failed
      cases failed
    · rw [loaded] at failed
      cases failed
      exact ⟨[.errs line], rfl, by simp⟩
    · rw [loaded] at failed
      cases failed

/-- A failed start-up is quiet exactly when the file does not ask for the client mode without a team
number: the client is started before the team is read. -/
theorem failsQuietly_iff (file : String) (world : World Scalar) :
    (FailsQuietly (initNT env file) world ↔ ¬ FileLacksTeam env file) ∧
      (FailsQuietly (readConfig env file) world ↔ ¬ FileLacksTeam env file) := by
  constructor
  · exact failsQuietly_iff_of_start env (fun j lacks => selectMode_lacksTeam env file lacks world)
      fun j keeps => selectMode_succeeds env file keeps world
  · exact failsQuietly_iff_of_start env
      (fun j lacks => readConfigStart_lacksTeam env file lacks world)
      fun j keeps => readConfigStart_succeeds env file keeps world

/-- The file holds a client configuration without a team number. -/
def clientWithoutTeamEnv : Environment Int where
  toFloat
    | .integer value => value
    | .decimal value => value.floor
  liveMode _ := .default
  files _ := .value (.object [("ntmode", .string "client")])
  clientVersion := 4

/-- This is the text of the missing team number. -/
def missingTeam : JsonException := .outOfRange 403 "key 'team' not found"

/-- This is the world after either call has failed. -/
def clientStarted : World Int :=
  ⟨fun _ _ => 0, [], [.outs "Setting up NetworkTables in CLIENT mode",
    .network (.startClient4 "VisionServer"),
    .errs ("Config error in frc.json: could not read team number: " ++ missingTeam.what)], []⟩

/-- Both calls report a failure after they have started the client. -/
theorem clientWithoutTeam_starts :
    ¬ FailsQuietly (initNT clientWithoutTeamEnv "frc.json") ⟨fun _ _ => 0, [], [], []⟩ ∧
      ¬ FailsQuietly (readConfig clientWithoutTeamEnv "frc.json") ⟨fun _ _ => 0, [], [], []⟩ := by
  constructor
  · intro quiet
    obtain ⟨reported, appended, silent⟩ := quiet clientStarted rfl
    exact silent (.startClient4 "VisionServer") ((List.nil_append reported ▸ appended) ▸ by decide)
  · intro quiet
    obtain ⟨reported, appended, silent⟩ := quiet clientStarted rfl
    exact silent (.startClient4 "VisionServer") ((List.nil_append reported ▸ appended) ▸ by decide)

end VisionServer.Config
