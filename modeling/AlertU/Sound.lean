import AlertU.Config

/-! Audio playback: the choice of the external player, one-shot sounds, and the handle of the
looping siren. -/

open FilePath Text

namespace AlertU

/-- An external command: the program and its arguments. -/
structure Command where
  prog : String
  args : List String
  deriving DecidableEq, Repr

/-- What the daemon finds on `PATH` and on the disk. -/
structure Programs where
  which : String → Bool
  fileExists : PathBuf → Bool

/-- A detected player: the program plus the fixed args that precede the file. -/
structure Player where
  prog : String
  args : List String
  deriving DecidableEq, Repr

namespace Player

def candidates : List Player :=
  [⟨"paplay", []⟩, ⟨"pw-play", []⟩, ⟨"aplay", ["-q"]⟩,
    ⟨"ffplay", ["-nodisp", "-autoexit", "-loglevel", "quiet"]⟩, ⟨"play", ["-q"]⟩]

/-- Pick a player, honouring `cfg.alsaDevice` when it is set. -/
def detect (programs : Programs) (cfg : Config) : Option Player :=
  let device := trim cfg.alsaDevice.toList
  if device ≠ [] ∧ programs.which "aplay" then
    some ⟨"aplay", ["-q", "-D", String.ofList device]⟩
  else candidates.find? fun player => programs.which player.prog

def command (player : Player) (path : PathBuf) : Command :=
  ⟨player.prog, player.args ++ [path.raw]⟩

end Player

/-- The handle of a running siren: the task of its loop, whose `stop` flag and `notify` it holds. -/
structure SirenHandle where
  task : ℕ
  deriving DecidableEq, Repr

/-- Plays one-shot sounds and manages a looping siren. -/
structure SoundPlayer where
  player : Option Player
  siren : Option SirenHandle
  deriving DecidableEq, Repr

namespace SoundPlayer

def new (programs : Programs) (cfg : Config) : SoundPlayer := ⟨Player.detect programs cfg, none⟩

/-- Re-pick the player after a live reconfigure. A siren already sounding keeps its player. -/
def reconfigure (sound : SoundPlayer) (programs : Programs) (cfg : Config) : SoundPlayer :=
  { sound with player := Player.detect programs cfg }

/-- The command `play_once` spawns, if any. -/
def playOnce (sound : SoundPlayer) (programs : Programs) (path : PathBuf) : Option Command :=
  match sound.player with
  | none => none
  | some player => if programs.fileExists path then some (player.command path) else none

/-- Stop the looping siren, if any. -/
def stopSiren (sound : SoundPlayer) : SoundPlayer := { sound with siren := none }

/-- Start looping `path` as task number `task`; an existing siren is stopped first. Answers the
command that the loop spawns again and again. -/
def startSiren (sound : SoundPlayer) (programs : Programs) (task : ℕ) (path : PathBuf) :
    SoundPlayer × Option Command :=
  let sound := sound.stopSiren
  match sound.player with
  | none => (sound, none)
  | some player =>
      if programs.fileExists path then
        ({ sound with siren := some ⟨task⟩ }, some (player.command path))
      else (sound, none)

@[simp]
theorem stopSiren_siren (sound : SoundPlayer) : sound.stopSiren.siren = none := rfl

@[simp]
theorem playOnce_stopSiren (sound : SoundPlayer) (programs : Programs) (path : PathBuf) :
    sound.stopSiren.playOnce programs path = sound.playOnce programs path := rfl

end SoundPlayer

end AlertU
