import IvrFlow.Record.Basic

/-!
Recorded audio: what a play step plays. Both sources are kept while a step is edited, so that
switching between them loses nothing.
-/

namespace IvrFlow

/-- Where audio comes from. -/
inductive AudioSource where
  | local
  | remote
deriving DecidableEq

namespace AudioSource

/-- The word for a source. -/
def word : AudioSource → String
  | .local => "local"
  | .remote => "remote"

/-- How a source is stored. -/
def codec : Codec AudioSource := .word [("local", .local), ("remote", .remote)] word

end AudioSource

/-- A file uploaded with the project. -/
structure LocalAudio where
  fileName : String
deriving DecidableEq

namespace LocalAudio

/-- No file chosen yet. -/
def blank : LocalAudio := ⟨""⟩

/-- The stored form of a local file. -/
def form : Record LocalAudio where
  title := "LocalAudio"
  blank := blank
  fields := [.of "wavLocalFilename" [] .text (·.fileName) ({ · with fileName := · })]

end LocalAudio

/-- A file fetched from an address. -/
structure RemoteAudio where
  url : String
deriving DecidableEq

namespace RemoteAudio

/-- No address entered yet. -/
def blank : RemoteAudio := ⟨""⟩

/-- The stored form of a remote file. -/
def form : Record RemoteAudio where
  title := "RemoteAudio"
  blank := blank
  fields := [.of "wavUrl" [] .text (·.url) ({ · with url := · })]

end RemoteAudio

/-- The audio of a play step, and how often it is played. -/
structure Play where
  source : AudioSource
  repeats : Option UInt32
  localAudio : Option LocalAudio
  remoteAudio : Option RemoteAudio
deriving DecidableEq

namespace Play

/-- The audio of a new play step. -/
def new : Play := ⟨.local, none, some .blank, some .blank⟩

/-- The stored form of audio. -/
def fields : List (Field Play) :=
  [.orNull "local" [] LocalAudio.form.codec (·.localAudio) ({ · with localAudio := · }),
   .counter "loop" (·.repeats) ({ · with repeats := · }),
   .of "playType" [] AudioSource.codec (·.source) ({ · with source := · }),
   .orNull "remote" [] RemoteAudio.form.codec (·.remoteAudio) ({ · with remoteAudio := · })]

/-- Audio with both sources present. -/
def normalize (play : Play) : Play :=
  { play with
    localAudio := some (play.localAudio.getD .blank)
    remoteAudio := some (play.remoteAudio.getD .blank) }

/-- Audio with nothing but the chosen source. -/
def prune (play : Play) : Play :=
  match play.source with
  | .local => { play with remoteAudio := none }
  | .remote => { play with localAudio := none }

end Play

end IvrFlow
