import TaskDiagram.Layout
import TaskDiagram.Toml.Reader

/-!
# Settings

Settings are read from a text; whatever is not said there, or cannot be understood, has its
standard value.
-/

namespace TaskDiagram

/-- The version of the program. -/
def version : String := "0.1.0"

structure ServerConfig where
  host : String
  port : Nat
  deriving DecidableEq, Repr

structure Config where
  server : ServerConfig
  layout : Layout
  /-- Whether traces are handed to a collector. -/
  tracing : Bool

namespace Config

def standard : Config := ⟨⟨"127.0.0.1", 3000⟩, .standard, false⟩

/-- The fields of the settings, given how a record is read. -/
def fieldsWith (read : {α : Type} → String → Fields α → Decoder α) : Fields Config :=
  let server := read "ServerConfig" <|
    ServerConfig.mk <$> .defaulted "host" standard.server.host Decode.text
      <*> .defaulted "port" standard.server.port (Decode.natWithin 16 "u16")
  let telemetry := read "TelemetryConfig" <| .defaulted "otel" false Decode.bool
  Config.mk <$> .defaulted "server" standard.server server
    <*> .defaulted "layout" standard.layout (read "LayoutDefaults" Layout.fields)
    <*> .defaulted "telemetry" standard.tracing telemetry

def decode : Decoder Config := (fieldsWith Fields.read).read "GlobalConfig"

def toJson (c : Config) : Json :=
  .obj [("layout", c.layout.toJson),
    ("server", .obj [("host", .str c.server.host), ("port", .int c.server.port)]),
    ("telemetry", .obj [("otel", .bool c.tracing)])]

/-- Settings as a text gives them, if it gives any. -/
def ofText? (text : String) : Option Config := do
  let value ← Toml.read text
  ((fieldsWith Fields.readOpen).readOpen "GlobalConfig" value).toOption

/-- Settings as a text gives them, or the standard ones. -/
def ofText (text : Option String) : Config := (text.bind ofText?).getD standard

end Config

end TaskDiagram
