/-
# Params.Allowlist -- which device params may be written, and with which values

The allowlist and its single guard `is_writable`, and the dump `read_all` runs on the
device and decodes.  Of each spec the model keeps what the guard reads; the labels,
groups, help texts, slider steps and dependencies are display data.
-/
import HomeConnect.Base.Text

namespace HomeConnect.Params

set_option autoImplicit false

inductive Kind
  | Bool
  | Int   -- integer in [min, max]
  | Enum  -- one of `options`
  | Info  -- read-only (informational)
deriving DecidableEq, Repr

structure Spec where
  key : Text
  kind : Kind
  /-- The values of the choices, for `Enum`. -/
  options : List Text
  /-- Inclusive bounds, for `Int`. -/
  min : Int
  max : Int

def b (key : Text) : Spec :=
  { key, kind := .Bool, options := [], min := 0, max := 0 }

def e (key : Text) (options : List Text) : Spec :=
  { key, kind := .Enum, options, min := 0, max := 0 }

def int_ (key : Text) (min max : Int) : Spec :=
  { key, kind := .Int, options := [], min, max }

def info (key : Text) : Spec :=
  { key, kind := .Info, options := [], min := 0, max := 0 }

/-- The allowlist, in source order. -/
def SPECS : List Spec :=
  [ b "OpenpilotEnabledToggle",
    b "ExperimentalMode",
    b "AlphaLongitudinalEnabled",
    b "DynamicExperimentalControl",
    b "DisengageOnAccelerator",
    e "LongitudinalPersonality" ["0", "1", "2"],
    e "HyundaiLongitudinalTuning" ["0", "1", "2"],
    b "IntelligentCruiseButtonManagement",
    b "SmartCruiseControlVision",
    b "SmartCruiseControlMap",
    b "CustomAccIncrementsEnabled",
    int_ "CustomAccShortPressIncrement" 1 10,
    e "SpeedLimitMode" ["0", "1", "2", "3"],
    e "SpeedLimitPolicy" ["0", "1", "2", "3", "4"],
    e "SpeedLimitOffsetType" ["0", "1", "2"],
    int_ "SpeedLimitValueOffset" (-30) 30,
    b "Mads",
    b "MadsMainCruiseAllowed",
    b "MadsUnifiedEngagementMode",
    e "MadsSteeringMode" ["0", "1", "2"],
    b "NeuralNetworkLateralControl",
    b "EnforceTorqueControl",
    b "BlinkerPauseLateralControl",
    int_ "BlinkerMinLateralControlSpeed" 0 255,
    int_ "BlinkerLateralReengageDelay" 0 10,
    e "AutoLaneChangeTimer" ["-1", "0", "1", "2", "3", "4", "5"],
    b "AutoLaneChangeBsmDelay",
    b "IsLdwEnabled",
    b "BlindSpot",
    b "GreenLightAlert",
    b "LeadDepartAlert",
    b "RoadNameToggle",
    b "ShowTurnSignals",
    b "TorqueBar",
    b "RocketFuel",
    b "StandstillTimer",
    b "TrueVEgoUI",
    b "HideVEgoUI",
    b "RainbowMode",
    e "ChevronInfo" ["0", "1", "2", "3", "4"],
    e "DevUIInfo" ["0", "1", "2", "3"],
    e "OnroadScreenOffBrightness" ["0", "1", "2", "7", "12", "17", "22"],
    e "OnroadScreenOffTimer" ["3", "5", "7", "10", "15", "30", "60", "120", "180", "240", "300", "360", "420", "480", "540", "600"],
    int_ "InteractivityTimeout" 0 120,
    b "RecordFront",
    b "RecordAudio",
    b "RecordAudioFeedback",
    e "DeviceBootMode" ["0", "1"],
    b "OffroadMode",
    e "MaxTimeOffroad" ["0", "5", "10", "15", "30", "60", "120", "180", "300", "600", "1440", "1800"],
    b "QuietMode",
    info "SshEnabled",
    b "AdbEnabled",
    b "GsmMetered",
    b "OnroadUploads",
    b "SunnylinkEnabled",
    b "DisableUpdates",
    b "ShowAdvancedControls",
    b "QuickBootToggle",
    info "Version",
    info "GitBranch",
    info "DongleId",
    info "HardwareSerial",
    info "GithubUsername" ]

def spec (key : Text) : Option Spec := SPECS.find? fun s => decide (s.key = key)

/-- Is `(key, value)` an allowed, valid write?  The single guard for every write path. -/
def is_writable (key value : Text) : Bool :=
  match spec key with
  | some s =>
      match s.kind with
      | .Bool => value = "0" || value = "1"
      | .Int =>
          match Text.parse_i64 value with
          | some v => s.min ≤ v && v ≤ s.max
          | none => false
      | .Enum => s.options.any fun v => decide (v = value)
      | .Info => false
  | none => false

example : is_writable "LongitudinalPersonality" "2" = true := by decide
example : is_writable "LongitudinalPersonality" "3" = false := by decide

/-! ## Reading every allowlisted param -/

/-- The files under the params directory of one device. -/
abbrev Files := Text → Option Text

/-- What the dump command prints: for each key the key, a tab, the file's content
(nothing when the param is not set) and a line feed. -/
def dump (files : Files) : Text :=
  SPECS.flatMap fun s => s.key ++ '\t' :: (files s.key).getD [] ++ ['\n']

/-- Decode the dump into `(key, value)` pairs, skipping lines without a tab. -/
def read_all (out : Text) : List (Text × Text) :=
  (Text.lines out).filterMap fun line => Text.split_once '\t' line

end HomeConnect.Params
