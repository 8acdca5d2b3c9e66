import RhythmLobby.Config.Address
import RhythmLobby.Config.Limits
import RhythmLobby.Toml.Decode
import RhythmLobby.Toml.Document

/-!
# The configuration of a server

A configuration is a TOML document.  Only the name of the server must be given; everything else has
a standard value.

* `Config`          a configuration;
* `Config.load`     the configuration in a file's bytes;
* `Config.Error`    why a file gives no configuration;
* `Listen.allows`   whether a page may open a connection.
-/

namespace RhythmLobby

/-- the name of a server, and the number of the service that shows its metrics; zero is none -/
structure Identity where
  name : String
  metricsService : UInt16

/-- where to listen, and the pages that may connect -/
structure Listen where
  websocket : SocketAddress
  allowOrigins : List String

namespace Listen

def standard : Listen := ⟨.v4 ⟨0, 0, 0, 0⟩ 8080, []⟩

/-- whether a connection from a page may be opened.  An empty list lets every page connect, and also
a client that names none. -/
def allows (l : Listen) (origin : Option String) : Bool :=
  l.allowOrigins.isEmpty || origin.any fun o => l.allowOrigins.contains o

end Listen

inductive Backend where
  | redis
  | memory
  deriving DecidableEq

namespace Backend

def name : Backend → String
  | .redis => "redis"
  | .memory => "memory"

def all : List Backend := [.redis, .memory]

end Backend

structure CacheAddress where
  backend : Backend
  url : String

def CacheAddress.standard : CacheAddress := ⟨.redis, "redis://127.0.0.1:6379/"⟩

structure Config where
  server : Identity
  listen : Listen
  databasePath : String
  cache : CacheAddress
  timeouts : Timeouts
  flood : FloodLimits

namespace Config

/-! ## Reading -/

open Toml

def standardPath : String := "rhythmd.db"

/-- the number of a service, which has 16 bits -/
def service : Decoder UInt16 := fun v => (Decoder.whole UInt16.size v).map UInt16.ofNat

def address : Decoder SocketAddress := fun v => (Decoder.string v).bind SocketAddress.parse?

def identity : Decoder Identity := fun v => do
  let ms ← fields? ["name", "metrics_port"] v
  return ⟨← field Decoder.string ms "name", ← fieldOr 9090 service ms "metrics_port"⟩

def listenAt : Decoder Listen := fun v => do
  let ms ← fields? ["websocket", "allow_origins"] v
  return ⟨← fieldOr Listen.standard.websocket address ms "websocket",
    ← fieldOr [] (Decoder.list Decoder.string) ms "allow_origins"⟩

def databasePathAt : Decoder String := fun v => do
  let ms ← fields? ["path"] v
  fieldOr standardPath Decoder.string ms "path"

def backend : Decoder Backend := Decoder.named (Backend.all.map fun b => (b.name, b))

def cacheAt : Decoder CacheAddress := fun v => do
  let ms ← fields? ["backend", "url"] v
  return ⟨← fieldOr CacheAddress.standard.backend backend ms "backend",
    ← fieldOr CacheAddress.standard.url Decoder.string ms "url"⟩

def timeoutsAt : Decoder Timeouts := fun v => do
  let names := ["ping_interval", "pong_timeout", "write_ms", "login", "online_count_interval"]
  let ms ← fields? names v
  let time (name : String) (standard : Nat) := fieldOr standard (Decoder.whole UInt64.size) ms name
  return ⟨← time "ping_interval" Timeouts.standard.pingInterval,
    ← time "pong_timeout" Timeouts.standard.pongTimeout,
    ← time "write_ms" Timeouts.standard.writeMs,
    ← time "login" Timeouts.standard.login,
    ← time "online_count_interval" Timeouts.standard.onlineCountInterval⟩

def floodAt : Decoder FloodLimits := fun v => do
  let ms ← fields? ["rate", "burst", "max_violations"] v
  let whole (name : String) (standard bound : Nat) := fieldOr standard (Decoder.whole bound) ms name
  return ⟨← whole "rate" FloodLimits.standard.rate UInt32.size,
    ← whole "burst" FloodLimits.standard.burst UInt32.size,
    ← whole "max_violations" FloodLimits.standard.maxViolations UInt8.size⟩

/-- the configuration that the members of a document's outermost table give -/
def ofMembers? (ms : Members) : Option Config := do
  return ⟨← field identity ms "server",
    ← fieldOr Listen.standard listenAt ms "listen",
    ← fieldOr standardPath databasePathAt ms "database",
    ← fieldOr CacheAddress.standard cacheAt ms "cache",
    ← fieldOr Timeouts.standard timeoutsAt ms "timeouts",
    ← fieldOr FloodLimits.standard floodAt ms "flood"⟩

def ofText? (text : String) : Option Config := (parse? text).bind ofMembers?

/-! ## Checks -/

/-- what may not be configured -/
inductive Contradiction where
  | zeroTimeout
  | pongBeforePing
  | zeroRate
  deriving DecidableEq

def Contradiction.message : Contradiction → String
  | .zeroTimeout => "timeouts must be greater than zero"
  | .pongBeforePing => "timeouts.pong_timeout must exceed timeouts.ping_interval"
  | .zeroRate => "flood.rate and flood.burst must be greater than zero"

/-- the first contradiction of a configuration, the times before the rates -/
def contradiction? (c : Config) : Option Contradiction :=
  let t := c.timeouts
  if t.pingInterval = 0 ∨ t.writeMs = 0 ∨ t.login = 0 ∨ t.onlineCountInterval = 0 then
    some .zeroTimeout
  else if t.pongTimeout ≤ t.pingInterval then some .pongBeforePing
  else if c.flood.rate = 0 ∨ c.flood.burst = 0 then some .zeroRate
  else none

/-! ## Files -/

inductive Error where
  | missing
  | notText
  | malformed
  | contradiction (c : Contradiction)
  deriving DecidableEq

def Error.message : Error → String
  | .missing => "failed to read config file: No such file or directory (os error 2)"
  | .notText => "failed to read config file: stream did not contain valid UTF-8"
  | .malformed => "failed to parse config"
  | .contradiction c => "invalid config: " ++ c.message

/-- the configuration in the bytes of a file, or `none` where there is no file -/
def load : Option ByteArray → Except Error Config
  | none => .error .missing
  | some bytes =>
    match String.fromUTF8? bytes with
    | none => .error .notText
    | some text =>
      match ofText? text with
      | none => .error .malformed
      | some c =>
        match c.contradiction? with
        | some e => .error (.contradiction e)
        | none => .ok c

end Config
end RhythmLobby
