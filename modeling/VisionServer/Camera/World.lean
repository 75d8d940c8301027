/-
This file models the state that the configuration loader works on.
-/

import VisionServer.Library.Exceptions
import VisionServer.Camera.VideoMode

namespace VisionServer.Camera
open Library

/-- A matrix header names a shared buffer and its shape. Copies of a header share the buffer. -/
structure Mat where
  buffer : Nat
  rows : Nat
  cols : Nat
deriving DecidableEq

/-- The store maps each buffer and each flat position to its content. -/
abbrev Store (Scalar : Type) := Nat → Nat → Scalar

def Mat.get {Scalar : Type} (array : Mat) (store : Store Scalar) (row col : Nat) : Scalar :=
  store array.buffer (row * array.cols + col)

def Mat.set {Scalar : Type} (array : Mat) (row col : Nat) (value : Scalar)
    (store : Store Scalar) : Store Scalar :=
  fun buffer position =>
    if buffer = array.buffer ∧ position = row * array.cols + col then value
    else store buffer position

/-- This is `VisionCamera::default_matrix`. -/
def defaultMatrix : Mat := ⟨0, 3, 3⟩

/-- This is `VisionCamera::default_distort`. -/
def defaultDistort : Mat := ⟨1, 1, 5⟩

/-- A sink has a name and the handle of its source. -/
structure CvSink where
  name : String
  source : Nat
deriving DecidableEq

/-- A camera source of the capture library keeps its strategy and the last configuration. -/
structure UsbSource where
  name : String
  path : String
  config : Option Json
  keepOpen : Bool

/-- A camera holds handles of its source and of its matrices. The handle zero names no source. -/
structure VisionCamera where
  handle : Nat
  config : Json
  calibration : Json
  raw : CvSink
  cameraMatrix : Mat
  distortion : Mat
  properties : VideoMode

/-- These are the calls of the loader into the network tables instance. -/
inductive NetworkCall where
  | startClient4 (identity : String)
  | startClient3 (identity : String)
  | setServerTeam (team : Nat)
  | startDSClient
  | startServer
  | setServer (host : String)
deriving DecidableEq

/-- The loader calls the network tables and writes lines of text. -/
inductive Effect where
  | network (call : NetworkCall)
  | outs (line : String)
  | errs (line : String)
deriving DecidableEq

/-- The world holds the matrix buffers, the sources with handles from one, the effects in order and
the vector that a loader fills. -/
structure World (Scalar : Type) where
  store : Store Scalar
  sources : List UsbSource
  effects : List Effect
  cameras : List VisionCamera

/-- A file is missing, is not JSON text, holds a number beyond `double`, or holds a value. -/
inductive FileContent where
  | unreadable (message : String)
  | malformed (exception : JsonException)
  | overflowing (exception : JsonException)
  | value (content : Json)

/-- The environment fixes the conversion of numbers, the live video modes, the files and
`NT_CLIENT_VERSION`. -/
structure Environment (Scalar : Type) where
  toFloat : JsonNumber → Scalar
  liveMode : Nat → VideoMode
  files : String → FileContent
  clientVersion : Nat

/-- The loader keeps its state when it throws. -/
abbrev Loader (Scalar : Type) := EStateM JsonException (World Scalar)

variable {Scalar : Type}

def emit (effect : Effect) : Loader Scalar Unit :=
  modify fun world => { world with effects := world.effects ++ [effect] }

def errs (line : String) : Loader Scalar Unit := emit (.errs line)

def outs (line : String) : Loader Scalar Unit := emit (.outs line)

def network (call : NetworkCall) : Loader Scalar Unit := emit (.network call)

/-- This is an assignment to `array[row][col]`. -/
def setEntry (array : Mat) (row col : Nat) (value : Scalar) : Loader Scalar Unit :=
  modify fun world => { world with store := array.set row col value world.store }

/-- This is `cameras.emplace_back` after the construction of the element. -/
def emplaceBack (camera : VisionCamera) : Loader Scalar Unit :=
  modify fun world => { world with cameras := world.cameras ++ [camera] }

end VisionServer.Camera
