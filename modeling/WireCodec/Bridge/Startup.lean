import WireCodec.Bridge.Basic

/-!
# Starting the bridge

The bridge takes its settings from the environment and is then served over one transport.  If the settings are
not accepted it is not served, the settings in force stay as they are, and the process ends with a line of
JSON, the transport error of a bridge that could not be started.  How the transport carries calls and replies
is left to it.
-/

namespace WireCodec.Bridge

/-- What a start has led to. -/
structure Startup where
  /-- The settings in force afterwards. -/
  config : Config
  /-- The transports over which the bridge is served. -/
  transports : List String
  /-- The level from which on records are shown, or the text with which the process ends. -/
  outcome : Except Text Log.Level
  log : List Log.Record

/-- The record of a start. -/
def startRecord (c : Config) : Log.Record :=
  ⟨.info, logger,
    Text.ofString "Starting codec bridge (protocol v" ++ Text.ofNat Handshake.version ++
      Text.ofString ", max " ++ Text.ofInt c.maxParameters ++ Text.ofString " params)"⟩

/-- A start with loaded settings, while others are in force. -/
def startWith (inForce : Config) : Except Config.Fault Config → Startup
  | .ok c => ⟨c, ["stdio"], .ok (c.level?.getD .info), [startRecord c]⟩
  | .error fault => ⟨inForce, [], .error (TransportError.bridgeInit fault.message).serializeText, []⟩

/-- Starts the bridge in an environment to which a file of variables adds, while the given settings are in force. -/
def start (inForce : Config) (env : Environment) (file : Assignments) : Startup × Environment :=
  let (loaded, env) := Config.load env file
  (startWith inForce loaded, env)

end WireCodec.Bridge
