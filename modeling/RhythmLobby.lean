import RhythmLobby.Config.Settings
import RhythmLobby.Connection.Loop
import RhythmLobby.Proofs.Accounts
import RhythmLobby.Proofs.Attendance
import RhythmLobby.Proofs.Authority
import RhythmLobby.Proofs.Cache.Cleanup
import RhythmLobby.Proofs.Cache.Fields
import RhythmLobby.Proofs.Cache.Keys
import RhythmLobby.Proofs.Cache.Landing
import RhythmLobby.Proofs.Cache.Ownership
import RhythmLobby.Proofs.Connection.Flooding
import RhythmLobby.Proofs.Connection.Gate
import RhythmLobby.Proofs.Failures
import RhythmLobby.Proofs.Hub.FanOut
import RhythmLobby.Proofs.Hub.Halting
import RhythmLobby.Proofs.Hub.Hearing
import RhythmLobby.Proofs.Hub.Interleaving
import RhythmLobby.Proofs.Hub.Outside
import RhythmLobby.Proofs.Hub.Parallel
import RhythmLobby.Proofs.Hub.Scene
import RhythmLobby.Proofs.Hub.Slot
import RhythmLobby.Proofs.Hub.Trace
import RhythmLobby.Proofs.Json.Listing
import RhythmLobby.Proofs.Json.Numbers
import RhythmLobby.Proofs.Json.Objects
import RhythmLobby.Proofs.Json.Records
import RhythmLobby.Proofs.Json.Spelling
import RhythmLobby.Proofs.Json.Strings
import RhythmLobby.Proofs.Json.Tagged
import RhythmLobby.Proofs.Json.Values
import RhythmLobby.Proofs.Mirror
import RhythmLobby.Proofs.Number.Display
import RhythmLobby.Proofs.Number.Reach
import RhythmLobby.Proofs.Number.Shortest
import RhythmLobby.Proofs.Packet.Accepted
import RhythmLobby.Proofs.Packet.MemberOrder
import RhythmLobby.Proofs.Packet.RoundTrip
import RhythmLobby.Proofs.Passwords
import RhythmLobby.Proofs.Ranks
import RhythmLobby.Proofs.Refusals
import RhythmLobby.Proofs.Replica
import RhythmLobby.Proofs.Room.Agreement
import RhythmLobby.Proofs.Room.Bookkeeping
import RhythmLobby.Proofs.Room.Books
import RhythmLobby.Proofs.Room.Calm
import RhythmLobby.Proofs.Room.Changes
import RhythmLobby.Proofs.Room.Chronicle
import RhythmLobby.Proofs.Room.Closing
import RhythmLobby.Proofs.Room.Convergence
import RhythmLobby.Proofs.Room.Deeds
import RhythmLobby.Proofs.Room.Endings
import RhythmLobby.Proofs.Room.Following
import RhythmLobby.Proofs.Room.Footprint
import RhythmLobby.Proofs.Room.Halting
import RhythmLobby.Proofs.Room.Invariant
import RhythmLobby.Proofs.Room.Notes
import RhythmLobby.Proofs.Room.News
import RhythmLobby.Proofs.Room.Packets
import RhythmLobby.Proofs.Room.Passwords
import RhythmLobby.Proofs.Room.Patches
import RhythmLobby.Proofs.Room.Places
import RhythmLobby.Proofs.Room.Reach
import RhythmLobby.Proofs.Room.Rolls
import RhythmLobby.Proofs.Room.Rotation
import RhythmLobby.Proofs.Room.Settling
import RhythmLobby.Proofs.Room.Slots
import RhythmLobby.Proofs.Room.Soundness
import RhythmLobby.Proofs.Room.Stages
import RhythmLobby.Proofs.Room.Steady
import RhythmLobby.Proofs.Room.View
import RhythmLobby.Proofs.Room.Writes
import RhythmLobby.Proofs.Run
import RhythmLobby.Proofs.Session.Announcements
import RhythmLobby.Proofs.Session.Books
import RhythmLobby.Proofs.Session.Directory
import RhythmLobby.Proofs.Session.Halting
import RhythmLobby.Proofs.Session.Handover
import RhythmLobby.Proofs.Session.History
import RhythmLobby.Proofs.Session.Lifecycle
import RhythmLobby.Proofs.Session.Order
import RhythmLobby.Proofs.Session.Passwords
import RhythmLobby.Proofs.Session.Presence
import RhythmLobby.Proofs.Session.Roster
import RhythmLobby.Proofs.Session.Statuses
import RhythmLobby.Proofs.Session.Successor
import RhythmLobby.Proofs.Session.TokenBooks
import RhythmLobby.Proofs.Session.Tokens
import RhythmLobby.Proofs.Shutdown

/-!
# A server where players meet in rooms

Sessions, rooms and the index of places in memory, the tasks that change them, the store that
mirrors them, the database that is asked, and the texts that clients send and receive.  The modules
under `Proofs` say what holds of them.

Hashing of passwords is a parameter, and so are the tokens of sessions, the verdicts of the flood
guard and the moments at which the store and lines fail.  Left out are the sockets and the handshake
on them, stores outside of the process, the start of the process, logs, and how long anything takes.
-/
