/-
This file models the video mode that a camera configuration describes.
-/

import VisionServer.Library.Integers
import VisionServer.Library.Json

namespace VisionServer.Camera
open Library

/-- These are the pixel formats of `cs::VideoMode`. -/
inductive PixelFormat where
  | kUnknown | kMJPEG | kYUYV | kRGB565 | kBGR | kGray | kY16 | kUYVY
deriving DecidableEq

structure VideoMode where
  pixelFormat : PixelFormat
  width : Int
  height : Int
  fps : Int
deriving DecidableEq

/-- The default constructor of `cs::VideoMode`. -/
def VideoMode.default : VideoMode := ⟨.kUnknown, 0, 0, 0⟩

/-- The conversion to `bool` is true exactly for the unknown pixel format. -/
def VideoMode.toBool (mode : VideoMode) : Bool := mode.pixelFormat = .kUnknown

def pixelFormatOf (name : String) : PixelFormat :=
  if equalsLower name "mjpeg" then .kMJPEG
  else if equalsLower name "yuyv" then .kYUYV
  else if equalsLower name "rgb565" then .kRGB565
  else if equalsLower name "bgr" then .kBGR
  else if equalsLower name "gray" then .kGray
  else .kUnknown

/-- Each numeric field converts an unsigned value to `int` and keeps zero on an exception. -/
def jsonField (config : Json) (key : String) : Int :=
  if config.count key ≠ 0 then
    match config.atKey key >>= Json.getUnsigned with
    | .ok value => toInt32 value
    | .error _ => 0
  else 0

def getJsonVideoMode (config : Json) : VideoMode where
  pixelFormat :=
    if config.count "pixel format" ≠ 0 then
      match config.atKey "pixel format" >>= Json.getString with
      | .ok name => pixelFormatOf name
      | .error _ => .kUnknown
    else .kUnknown
  width := jsonField config "width"
  height := jsonField config "height"
  fps := jsonField config "fps"

end VisionServer.Camera
