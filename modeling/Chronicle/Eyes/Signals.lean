import Chronicle.Eyes.Types

/-!
# The signals of the EYES segmentation

The interaction vocabulary is normalized and reduced to the signals that open and close device-state
blocks or app episodes.
-/

namespace Chronicle.Eyes

/-- `normalize_interaction_type` -/
def normalizeInteractionType (value : String) : String :=
  match value with
  | "Instance of Usage for an App" => "App Usage"
  | "Screen Usage" => "Screen Usage"
  | "Activity Resumed for a Filtered App" => "Filtered App Resumed"
  | "Activity Paused for a Filtered App" => "Filtered App Paused"
  | "Instance of Usage for a Filtered App" => "Filtered App Usage"
  | "Missing End of Usage after an App Starts Being Used" => "End of Usage Missing"
  | "Unknown importance: 1" | "Move to Foreground" => "Activity Resumed"
  | "Unknown importance: 2" | "Move to Background" => "Activity Paused"
  | "Unknown importance: 3" => "End of Day"
  | "Unknown importance: 4" => "Continue Previous Day"
  | "Unknown importance: 5" => "Configuration Change"
  | "Unknown importance: 6" => "System Interaction"
  | "Unknown importance: 7" => "User Interaction"
  | "Unknown importance: 8" => "Shortcut Invocation"
  | "Unknown importance: 9" => "Chooser Action"
  | "Unknown importance: 10" => "Notification Seen"
  | "Unknown importance: 11" => "Standby Bucket Changed"
  | "Unknown importance: 12" => "Notification Interruption"
  | "Unknown importance: 13" => "Slice Pinned Priv"
  | "Unknown importance: 14" => "Slice Pinned App"
  | "Unknown importance: 15" => "Screen Interactive"
  | "Unknown importance: 16" | "Screen Non-interactive" => "Screen Non-Interactive"
  | "Unknown importance: 17" => "Keyguard Shown"
  | "Unknown importance: 18" => "Keyguard Hidden"
  | "Unknown importance: 19" => "Foreground Service Start"
  | "Unknown importance: 20" => "Foreground Service Stop"
  | "Unknown importance: 21" => "Continuing Foreground Service"
  | "Unknown importance: 22" => "Rollover Foreground Service"
  | "Unknown importance: 23" => "Activity Stopped"
  | "Unknown importance: 24" => "Activity Destroyed"
  | "Unknown importance: 25" => "Flush to Disk"
  | "Unknown importance: 26" => "Device Shutdown"
  | "Unknown importance: 27" => "Device Startup"
  | "Unknown importance: 28" => "User Unlocked"
  | "Unknown importance: 29" => "User Stopped"
  | "Unknown importance: 30" => "Locus ID Set"
  | "Unknown importance: 31" => "App Component Used"
  | other => other

/-- One usage event; the package is empty for device-scoped events. -/
structure EyesEvent where
  timestampNs : Int
  interactionType : String
  appPackageName : String
deriving DecidableEq, Repr

/-- The slice of the vocabulary that the segmentation reads. -/
inductive EyesSignal where
  | deviceShutdown
  | userStopped
  | deviceStartup
  | userUnlocked
  | screenNonInteractive
  | keyguardShown
  | screenInteractive
  | keyguardHidden
  | activityResumed
  | activityPaused
  | activityStopped
  | other
deriving DecidableEq, Repr

/-- `EyesSignal::classify` -/
def EyesSignal.classify (interactionType : String) : EyesSignal :=
  let canonical :=
    if interactionType = "Screen Non-interactive" then "Screen Non-Interactive"
    else normalizeInteractionType interactionType
  match canonical with
  | "Device Shutdown" => .deviceShutdown
  | "User Stopped" => .userStopped
  | "Device Startup" => .deviceStartup
  | "User Unlocked" => .userUnlocked
  | "Screen Non-Interactive" => .screenNonInteractive
  | "Keyguard Shown" => .keyguardShown
  | "Screen Interactive" => .screenInteractive
  | "Keyguard Hidden" => .keyguardHidden
  | "Activity Resumed" => .activityResumed
  | "Activity Paused" => .activityPaused
  | "Activity Stopped" => .activityStopped
  | _ => .other

namespace EyesSignal

/-- `opens_shutdown` -/
def opensShutdown (signal : EyesSignal) : Bool := signal = deviceShutdown ∨ signal = userStopped

/-- `closes_shutdown` -/
def closesShutdown (signal : EyesSignal) : Bool := signal = deviceStartup ∨ signal = userUnlocked

/-- `opens_idle` -/
def opensIdle (signal : EyesSignal) : Bool :=
  signal = screenNonInteractive ∨ signal = keyguardShown

/-- `closes_idle` -/
def closesIdle (signal : EyesSignal) : Bool := signal = screenInteractive ∨ signal = keyguardHidden

/-- `is_shutdown_class_reboot` -/
def isShutdownClassReboot (signal : EyesSignal) : Bool :=
  signal = deviceShutdown ∨ signal = userStopped

/-- `is_startup_class_reboot` -/
def isStartupClassReboot (signal : EyesSignal) : Bool :=
  signal = deviceStartup ∨ signal = userUnlocked

/-- `is_triplet_reboot` -/
def isTripletReboot (signal : EyesSignal) : Bool :=
  signal = deviceShutdown ∨ signal = deviceStartup ∨ signal = userUnlocked ∨ signal = userStopped

end EyesSignal

/-- The signal of an event. -/
def EyesEvent.signal (event : EyesEvent) : EyesSignal := .classify event.interactionType

end Chronicle.Eyes
