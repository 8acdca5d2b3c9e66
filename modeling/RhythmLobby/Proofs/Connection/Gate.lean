import RhythmLobby.Connection.Loop
import RhythmLobby.Proofs.Accounts
import RhythmLobby.Proofs.Mirror
import RhythmLobby.Proofs.Session.Halting
import RhythmLobby.Proofs.Session.Lifecycle

/-!
# Who gets in

A connection begins with a login: the first text has to name an account and a password that opens
it.  Whoever gets no session is told why, and hung up on.

* `Speaks`, `Asks`        the first text of a stream, and what it asks for;
* `PasswordHasher.Admits`  the account that a stream opens;
* `logIn_does`            a login, step by step;
* `reject_amid`           what a client hears that gets no session;
* `only_owners_get_in`    who gets a session, and what becomes of all others.
-/

namespace RhythmLobby
open Routine

/-! ## The first text -/

/-- what may come before the first text: frames that are no texts, and time that passes -/
def Arrival.Passes : Arrival → Prop
  | .other | .wait _ => True
  | _ => False

/-- a text comes before the client is gone, and it is the first -/
def Speaks (stream : List Arrival) (frame : String) : Prop :=
  ∃ skipped rest, stream = skipped ++ .text frame :: rest ∧ ∀ a ∈ skipped, a.Passes

/-- the first text asks for a login -/
def Asks (stream : List Arrival) (name password : String) : Prop :=
  ∃ frame, Speaks stream frame ∧ ClientPacket.decode frame = .ok (.login name password)

theorem speaks_cons {a : Arrival} {rest : List Arrival} {frame : String} :
    Speaks (a :: rest) frame ↔ a = .text frame ∨ (a.Passes ∧ Speaks rest frame) := by
  constructor
  · intro h
    obtain ⟨skipped, rest', heq, hskipped⟩ := h
    cases skipped with
    | nil =>
      cases heq
      exact .inl rfl
    | cons b skipped =>
      cases heq
      rw [List.forall_mem_cons] at hskipped
      exact .inr ⟨hskipped.1, skipped, rest', rfl, hskipped.2⟩
  · rintro (rfl | ⟨ha, skipped, rest', rfl, hskipped⟩)
    · exact ⟨[], rest, rfl, nofun⟩
    · exact ⟨a :: skipped, rest', rfl, List.forall_mem_cons.mpr ⟨ha, hskipped⟩⟩

/-- if it comes in time, the first text is the one that is found -/
theorem firstText_eq {limit elapsed : Nat} {stream : List Arrival}
    (htime : firstText limit elapsed stream ≠ .error .timeout) :
    (∃ frame, firstText limit elapsed stream = .ok frame ∧
      ∀ frame', Speaks stream frame' ↔ frame' = frame) ∨
    (firstText limit elapsed stream = .error .closed ∧ ∀ frame, ¬ Speaks stream frame) := by
  have hgone : ∀ (a : Arrival) rest, (∀ frame, a ≠ .text frame) → ¬ a.Passes →
      ∀ frame, ¬ Speaks (a :: rest) frame := by
    intro a rest htext hpasses frame hspeaks
    rcases speaks_cons.mp hspeaks with h | ⟨h, -⟩
    · exact htext frame h
    · exact hpasses h
  have hpass : ∀ (a : Arrival) rest, (∀ frame, a ≠ .text frame) → a.Passes →
      ∀ frame, Speaks (a :: rest) frame ↔ Speaks rest frame := by
    intro a rest htext hpasses frame
    rw [speaks_cons, or_iff_right (htext frame), and_iff_right hpasses]
  induction stream generalizing elapsed with
  | nil =>
    refine .inr ⟨rfl, ?_⟩
    intro frame hexists
    obtain ⟨skipped, rest, h, -⟩ := hexists
    cases skipped <;> cases h
  | cons a rest ih =>
    cases a with
    | text frame =>
      refine .inl ⟨frame, rfl, fun frame' => ?_⟩
      rw [speaks_cons, Arrival.text.injEq, eq_comm]
      exact or_iff_left fun h => h.1
    | other =>
      simp only [hpass .other rest nofun trivial]
      exact ih htime
    | close => exact .inr ⟨rfl, hgone _ _ nofun id⟩
    | failure => exact .inr ⟨rfl, hgone _ _ nofun id⟩
    | wait ms =>
      simp only [hpass (.wait ms) rest nofun trivial]
      rw [firstText] at htime ⊢
      split at htime
      · exact absurd rfl htime
      · rename_i hsoon
        rw [if_neg hsoon]
        exact ih htime
    | pending => exact absurd rfl htime

theorem credentials_eq_ok {frame name password : String} :
    credentials frame = .ok (name, password) ↔
      ClientPacket.decode frame = .ok (.login name password) := by
  unfold credentials
  split
  · rename_i e h
    rw [h]
    exact ⟨nofun, nofun⟩
  · rename_i name' password' h
    rw [h]
    simp
  · rename_i p hp h
    rw [h]
    refine ⟨nofun, fun heq => ?_⟩
    cases heq
    exact absurd rfl (hp _ _)

/-! ## A login -/

section LogIn

variable {H : PasswordHasher} {stream : List Arrival} {token : String} {line : Nat} {w w' : World}
  {es : List Effect} {x : Except LoginRefusal Session}

/-- A login finds the first text, asks the database and has the session registered, each only if
all went well before. -/
theorem logIn_does (h : (logIn H stream token line).Does w x w' es) :
    match firstText (w.hub.timeouts.login * 1000) 0 stream >>= credentials with
    | .error e => x = .error e ∧ w' = w ∧ es = []
    | .ok (name, password) =>
      match w.hub.database.authenticate H name password with
      | .error e => x = .error (.database e) ∧ w' = w ∧ es = []
      | .ok profile =>
        ∃ y, (login profile token line).Does w y w' es ∧ x = y.mapError .registry := by
  replace h := does_read_bind h
  cases hasked : firstText (w.hub.timeouts.login * 1000) 0 stream >>= credentials with
  | error e =>
    rw [hasked] at h
    exact does_done h
  | ok asked =>
    obtain ⟨name, password⟩ := asked
    rw [hasked] at h
    replace h := does_read_bind h
    dsimp only
    cases hfound : w.hub.database.authenticate H name password with
    | error e =>
      rw [hfound] at h
      exact does_done h
    | ok profile =>
      rw [hfound] at h
      obtain ⟨es₁, es₂, rfl, y, w₁, hlogin, hdone⟩ := does_bind h
      cases y with
      | error e =>
        obtain ⟨rfl, rfl, rfl⟩ := does_done hdone
        rw [List.append_nil]
        exact ⟨_, hlogin, rfl⟩
      | ok s =>
        obtain ⟨rfl, rfl, rfl⟩ := does_done hdone
        rw [List.append_nil]
        exact ⟨_, hlogin, rfl⟩

theorem login_ok_of_fresh {profile : Profile} {y : Except RegistryError Session}
    (hfree : w.hub.directory.ofToken token = none)
    (h : (login profile token line).Does w y w' es) : ∃ s, y = .ok s := by
  rw [login_eq] at h
  replace h := does_transact_bind (does_transact_bind h)
  rcases register_cases (w.hub.addSession profile token line).1
    (w.hub.addSession profile token line).2 with ⟨-, htaken⟩ | ⟨d, heq, -⟩
  · exact absurd hfree htaken
  · rw [heq] at h
    dsimp only at h
    split at h
    · cases ‹Except.ok _ = Except.error _›
    · exact ⟨_, (Session.greet_does h).1⟩
    · obtain ⟨_, _, -, _, _, -, hafter⟩ := does_bind h
      obtain ⟨_, _, -, _, _, -, hgreet⟩ := does_bind hafter
      exact ⟨_, (Session.greet_does hgreet).1⟩

end LogIn

/-! ## What is asked for -/

section Asking

variable {limit : Nat} {stream : List Arrival}

theorem asks_iff (htime : firstText limit 0 stream ≠ .error .timeout) {name password : String} :
    firstText limit 0 stream >>= credentials = .ok (name, password) ↔
      Asks stream name password := by
  rcases firstText_eq htime with ⟨frame, hfirst, hspeaks⟩ | ⟨hfirst, hnone⟩
  · rw [hfirst]
    show credentials frame = _ ↔ _
    rw [credentials_eq_ok]
    constructor
    · exact fun h => ⟨frame, (hspeaks frame).mpr rfl, h⟩
    · intro hexists
      obtain ⟨frame', hfirst', h⟩ := hexists
      rwa [(hspeaks frame').mp hfirst'] at h
  · rw [hfirst]
    exact ⟨nofun, fun ⟨frame, hfirst, _⟩ => absurd hfirst (hnone frame)⟩

/-- a client that asks for no login is told so if it has said anything -/
theorem reply_of_not_asking (htime : firstText limit 0 stream ≠ .error .timeout)
    {e : LoginRefusal} (h : firstText limit 0 stream >>= credentials = .error e) :
    e.reply = none ↔ ∀ frame, ¬ Speaks stream frame := by
  rcases firstText_eq htime with ⟨frame, hfirst, hspeaks⟩ | ⟨hfirst, hnone⟩
  · rw [hfirst] at h
    replace h : credentials frame = .error e := h
    have hsome : e.reply ≠ none := by
      unfold credentials at h
      split at h
      · cases h
        exact nofun
      · cases h
      · cases h
        exact nofun
    exact ⟨fun hn => absurd hn hsome, fun hn => absurd ((hspeaks frame).mpr rfl) (hn frame)⟩
  · rw [hfirst] at h
    cases h
    exact ⟨fun _ => hnone, fun _ => rfl⟩

end Asking

/-! ## A rejection -/

theorem LoginRefusal.reply_error (e : LoginRefusal) :
    ∃ told : Option String, e.reply = told.map .error := by
  cases e with
  | closed => exact ⟨none, rfl⟩
  | database e =>
    cases e with
    | invalidCredentials => exact ⟨some _, rfl⟩
    | _ => exact ⟨some unavailableText, rfl⟩
  | registry e => exact ⟨some unavailableText, rfl⟩
  | _ => exact ⟨some _, rfl⟩

theorem reject_does {e : LoginRefusal} {line : Nat} {w w' : World} {es : List Effect}
    (h : (reject e line).Does w () w' es) : w'.hub = w.hub ∧ es =
      .note (.loginFailed e.reason) :: e.reply.toList.map (.offer · line) ++ [.hangUp line] := by
  obtain ⟨es₁, rfl, hreply⟩ := does_emit_bind h
  cases hp : e.reply with
  | none =>
    rw [hp] at hreply
    obtain ⟨-, rfl, rfl⟩ := does_emit hreply
    exact ⟨rfl, rfl⟩
  | some p =>
    rw [hp] at hreply
    obtain ⟨es₂, rfl, hhang⟩ := does_emit_bind hreply
    obtain ⟨-, rfl, rfl⟩ := does_emit hhang
    exact ⟨Effect.perform_hub (.offer p line) _, rfl⟩

/-- nothing that a line answers changes how a client is rejected -/
theorem oblivious_reject (e : LoginRefusal) (line : Nat) : (reject e line).Oblivious := by
  unfold reject
  refine Parallel.bind (parallel_tell _) fun _ => ?_
  cases e.reply with
  | none => exact parallel_tell _
  | some p => exact (parallel_emit _).drop (parallel_tell _)

/-- Whoever is rejected hears at most one error, and then its line is hung up.  Nothing changes in
memory, and no store is called. -/
theorem reject_amid {e : LoginRefusal} {line : Nat} {steady : Nat → Prop} {w w' : World}
    {es : List Effect} (h : (reject e line).DoesAmid (.sparing steady) w () w' es) :
    w'.hub = w.hub ∧ (∀ u, .update u ∉ es) ∧ ∃ told : Option String, e.reply = told.map .error ∧
      ∀ n, heardAt n es = told.toList.flatMap (fun text =>
        (LineEvent.frame (.error text)).at line n)
        ++ LineEvent.hangUp.at line n := by
  obtain ⟨v, hdoes, hv⟩ := (oblivious_reject e line).does h rfl
  obtain ⟨hhub, rfl⟩ := reject_does hdoes
  obtain ⟨told, htold⟩ := e.reply_error
  rw [htold]
  refine ⟨hv.symm.trans hhub, fun u hu => ?_, told, rfl, fun n => ?_⟩
  · cases told <;> simp at hu
  · cases told with
    | none => simp [heardAt, Effect.at]
    | some text => simp [heardAt, Effect.at]

/-! ## Who gets in -/

/-- An account that a stream opens: the first text asks for a login with its name and a password,
the text that is stored with it parses as a hash and verifies the password, and its id fits in 32
bits. -/
structure PasswordHasher.Admits (H : PasswordHasher) (d : Database) (stream : List Arrival)
    (a : Account) : Prop where
  listed : a ∈ d.accounts
  asks : ∃ name password, Asks stream name password ∧ Database.sameName a.username name = true ∧
    H.Opens a.passwordHash password
  fits : a.Fits

section Gate

variable {H : PasswordHasher} {stream : List Arrival} {token : String} {line : Nat} {w w' : World}
  {es : List Effect}

/-- whoever gets a session has opened an account, and the session is all that is new -/
theorem logIn_ok (hw : w.Reliable) (hh : w.hub.Orderly) (hdistinct : w.hub.database.Distinct)
    (htime : firstText (w.hub.timeouts.login * 1000) 0 stream ≠ .error .timeout) {s : Session}
    (h : (logIn H stream token line).Does w (.ok s) w' es) :
    w.hub.database.isOpen = true ∧ s.token = token ∧ s.line = line ∧ w.hub.Admitted s w'.hub ∧
      ∃ a, H.Admits w.hub.database stream a ∧ s.profile = a.profile := by
  have hsteps := logIn_does h
  split at hsteps
  · cases hsteps.1
  rename_i name password hasked
  split at hsteps
  · cases hsteps.1
  rename_i profile hfound
  obtain ⟨y, hlogin, hy⟩ := hsteps
  cases y with
  | error e => cases hy
  | ok s' =>
    cases hy
    obtain ⟨hopen, a, ha, hname, hopens, hfits, rfl⟩ :=
      (Database.authenticate_eq_ok hdistinct).mp hfound
    obtain ⟨s', hs', htoken, hprofile, hadmitted, -⟩ :=
      (login_admitted hw hh hlogin.ends).resolve_left fun hc => nomatch hc.1
    cases hs'
    have hasks : Asks stream name password := (asks_iff htime).mp hasked
    have hline := login_line hh.coherent hlogin
    have hadmits : H.Admits w.hub.database stream a :=
      { listed := ha
        asks := ⟨name, password, hasks, hname, hopens⟩
        fits := hfits }
    exact ⟨hopen, htoken, hline, hadmitted, a, hadmits, hprofile⟩

/-- whoever opens an account gets a session, if the token is free -/
theorem logIn_of_admits (hdistinct : w.hub.database.Distinct)
    (htime : firstText (w.hub.timeouts.login * 1000) 0 stream ≠ .error .timeout)
    (hopen : w.hub.database.isOpen = true) (hfree : w.hub.directory.ofToken token = none)
    {a : Account} (ha : H.Admits w.hub.database stream a) {x : Except LoginRefusal Session}
    (h : (logIn H stream token line).Does w x w' es) : ∃ s, x = .ok s := by
  obtain ⟨name, password, hasks, hname, hopens⟩ := ha.asks
  have hfound : w.hub.database.authenticate H name password = .ok a.profile :=
    (Database.authenticate_eq_ok hdistinct).mpr
      ⟨hopen, a, ha.listed, hname, hopens, ha.fits, rfl⟩
  have hsteps := logIn_does h
  rw [(asks_iff htime).mpr hasks] at hsteps
  dsimp only at hsteps
  rw [hfound] at hsteps
  obtain ⟨y, hlogin, rfl⟩ := hsteps
  obtain ⟨s, rfl⟩ := login_ok_of_fresh hfree hlogin
  exact ⟨s, rfl⟩

/-- whoever gets no session leaves no trace but, where its token is taken, a state of no use -/
theorem logIn_error (hc : w.hub.directory.Coherent)
    (htime : firstText (w.hub.timeouts.login * 1000) 0 stream ≠ .error .timeout)
    {e : LoginRefusal} (h : (logIn H stream token line).Does w (.error e) w' es) :
    es = [] ∧ w'.hub = { w.hub with sessions := w'.hub.sessions } ∧
      (e.reply = none ↔ ∀ frame, ¬ Speaks stream frame) := by
  have hsteps := logIn_does h
  split at hsteps
  · rename_i e' hasked
    obtain ⟨he, rfl, rfl⟩ := hsteps
    cases he
    exact ⟨rfl, rfl, reply_of_not_asking htime hasked⟩
  rename_i name password hasked
  obtain ⟨frame, hfirst, -⟩ := (asks_iff htime).mp hasked
  have hspoken : ∀ e : LoginRefusal, e.reply ≠ none →
      (e.reply = none ↔ ∀ frame, ¬ Speaks stream frame) := fun e hsome =>
    ⟨fun hnone => absurd hnone hsome, fun hnone => absurd hfirst (hnone frame)⟩
  split at hsteps
  · rename_i e' _
    obtain ⟨he, rfl, rfl⟩ := hsteps
    cases he
    refine ⟨rfl, rfl, hspoken _ ?_⟩
    cases e' <;> exact nofun
  · obtain ⟨y, hlogin, hy⟩ := hsteps
    rcases login_does hc hlogin with ⟨rfl, rfl, rfl⟩ | ⟨s, _, _, _, _, -, rfl, -⟩
    · cases hy
      exact ⟨rfl, rfl, hspoken _ nofun⟩
    · cases hy

/-- whoever does not open an account is told the same, whatever the reason is -/
theorem logIn_invalid
    (htime : firstText (w.hub.timeouts.login * 1000) 0 stream ≠ .error .timeout)
    (hopen : w.hub.database.isOpen = true) {name password : String}
    (hasks : Asks stream name password)
    (hnone : ∀ a ∈ w.hub.database.accounts, Database.sameName a.username name = true →
      ¬ H.Opens a.passwordHash password) {x : Except LoginRefusal Session}
    (h : (logIn H stream token line).Does w x w' es) :
    x = .error (.database .invalidCredentials) := by
  have hsteps := logIn_does h
  rw [(asks_iff htime).mpr hasks] at hsteps
  dsimp only at hsteps
  rw [Database.authenticate_invalid hopen hnone] at hsteps
  exact hsteps.1

theorem halts_logIn (H : PasswordHasher) (stream : List Arrival) (token : String) (line : Nat) :
    (logIn H stream token line).Halts Hub.Rated := by
  refine halts_bind (halts_read _) fun limit => ?_
  split
  · exact halts_done _
  refine halts_bind (halts_read _) fun found => ?_
  split
  · exact halts_done _
  refine halts_bind (halts_login _ token line) fun y => ?_
  cases y with
  | error e => exact halts_done _
  | ok s => exact halts_done _

/-- nothing that a store or a line answers changes who gets in -/
theorem oblivious_logIn (H : PasswordHasher) (stream : List Arrival) (token : String) (line : Nat) :
    (logIn H stream token line).Oblivious := by
  refine Parallel.bind (parallel_read fun _ => rfl) fun limit => ?_
  split
  · exact .done _
  refine Parallel.bind (parallel_read fun _ => rfl) fun found => ?_
  split
  · exact .done _
  refine Parallel.bind (oblivious_login _ token line) fun y => ?_
  cases y with
  | error e => exact .done _
  | ok s => exact .done _

end Gate

section Course

variable {database : Database} {timeouts : Timeouts} {flood : FloodLimits} {clock : Int64}
  {steady : Nat → Prop} {start w : World} {past : List Act} {outcomes : List Outcome}

/-- After any acts amid failures of the store and of lines, and if a login does not take too long: a
client gets a session if and only if its first text comes before it is gone, names an account and a
password that opens it, and the database can be asked, the id fits and the token is free.  Then
exactly one session is new, with the profile of the account.

Otherwise nobody else hears anything, no store is called, and memory is as it was but for the state
of a session that is never found.  The client is told at most one error, none if it was gone before
its first text, and its line is hung up.  An unknown name, a wrong password and a stored text that
is no hash have the same outcome.  Names are the same up to ASCII capitals, where one of the two
contains no NUL. -/
theorem only_owners_get_in (H : PasswordHasher)
    (h : Course Act.Proper (.sparing steady) start past outcomes w)
    (hstart : start.hub = .start database timeouts flood clock)
    (hdistinct : w.hub.database.Distinct) (stream : List Arrival) (token : String) (line : Nat)
    (htime : firstText (w.hub.timeouts.login * 1000) 0 stream ≠ .error .timeout) :
    ((∀ act ∈ past, act.Rated) →
      ∃ x w' es, (logIn H stream token line).DoesAmid (.sparing steady) w x w' es) ∧
    (∀ x w' es, (logIn H stream token line).DoesAmid (.sparing steady) w x w' es →
      ((∃ s, x = .ok s) ↔ w.hub.database.isOpen = true ∧
        w.hub.directory.ofToken token = none ∧ ∃ a, H.Admits w.hub.database stream a) ∧
      (∀ s, x = .ok s → s.token = token ∧ s.line = line ∧ w.hub.Admitted s w'.hub ∧
        ∃ a, H.Admits w.hub.database stream a ∧ s.profile = a.profile ∧
          s.id.toInt = a.id.toInt) ∧
      (∀ e, x = .error e → es = [] ∧ w'.hub = { w.hub with sessions := w'.hub.sessions } ∧
        (e.reply = none ↔ ∀ frame, ¬ Speaks stream frame)) ∧
      (w.hub.database.isOpen = true → ∀ name password, Asks stream name password →
        (∀ a ∈ w.hub.database.accounts, Database.sameName a.username name = true →
          ¬ H.Opens a.passwordHash password) → x = .error (.database .invalidCredentials))) ∧
    (∀ e v v' es, (reject e line).DoesAmid (.sparing steady) v () v' es →
      v'.hub = v.hub ∧ (∀ u, .update u ∉ es) ∧
      (∃ told : Option String, e.reply = told.map .error ∧ ∀ n, heardAt n es =
        told.toList.flatMap (fun text => (LineEvent.frame (.error text)).at line n) ++
          LineEvent.hangUp.at line n) ∧
      ∀ l, v.lines[line]? = some l → ∃ l', v'.lines[line]? = some l' ∧ l'.closed = true) ∧
    ∀ a b : String, '\x00' ∉ a.toList ∨ '\x00' ∉ b.toList →
      (Database.sameName a b = true ↔ small a = small b) := by
  obtain ⟨v, hv, -, hcourse⟩ := h.ofKnown.afresh hstart
  have hkept := hcourse.kept
  have hh := hkept.sessions.orderly
  rw [← hv] at hdistinct htime
  refine ⟨fun hpast => ?_, fun x w' es hw => ?_, fun e v v' es hw => ?_,
    fun _ _ => Database.sameName_iff⟩
  · have hrated : v.hub.Rated := hcourse.rated hpast
    obtain ⟨x, w', hends, -⟩ := halts_logIn H stream token line w (hv ▸ hrated)
    obtain ⟨es, hgo⟩ := hends.amid
    exact ⟨x, w', es, hgo⟩
  · obtain ⟨v', hdoes, hv'⟩ := (oblivious_logIn H stream token line).does hw hv
    rw [← hv, ← hv']
    have hsession (s : Session) (heq : x = .ok s) : v.hub.database.isOpen = true ∧
        s.token = token ∧ s.line = line ∧ v.hub.Admitted s v'.hub ∧
        ∃ a, H.Admits v.hub.database stream a ∧ s.profile = a.profile := by
      subst heq
      exact logIn_ok hkept.sessions.reliable hh hdistinct htime hdoes
    have hgets : (∃ s, x = .ok s) ↔ v.hub.database.isOpen = true ∧
        v.hub.directory.ofToken token = none ∧ ∃ a, H.Admits v.hub.database stream a := by
      constructor
      · intro hexists
        obtain ⟨s, heq⟩ := hexists
        obtain ⟨hopen, htoken, -, hadmitted, a, ha, -⟩ := hsession s heq
        rw [← htoken]
        exact ⟨hopen, hadmitted.fresh, a, ha⟩
      · intro hmay
        obtain ⟨hopen, hfree, a, ha⟩ := hmay
        exact logIn_of_admits hdistinct htime hopen hfree ha hdoes
    refine ⟨hgets, fun s heq => ?_, fun e heq => ?_, fun hopen name password hasks hnone => ?_⟩
    · obtain ⟨-, htoken, hline, hadmitted, a, ha, hprofile⟩ := hsession s heq
      have hid : s.id.toInt = a.id.toInt := by rw [Session.id, hprofile, ha.fits.id]
      exact ⟨htoken, hline, hadmitted, a, ha, hprofile, hid⟩
    · subst heq
      exact logIn_error hh.coherent htime hdoes
    · exact logIn_invalid htime hopen hasks hnone hdoes
  · obtain ⟨hhub, hstore, told, htold, hheard⟩ := reject_amid hw
    have hhungUp : LineEvent.hangUp ∈ heardAt line es := by
      rw [hheard, List.mem_append]
      exact .inr (LineEvent.mem_at.mpr ⟨rfl, rfl⟩)
    refine ⟨hhub, hstore, ⟨told, htold, hheard⟩, fun l hl => ?_⟩
    obtain ⟨l', hl', hclosed⟩ := hw.closed_line hl
    exact ⟨l', hl', hclosed.mpr (.inr hhungUp)⟩

end Course

/-! ## One account -/

namespace Account

/-- the hash of the word "password" with the salt "somesalt" -/
def sampleHash : String :=
  "$argon2id$v=19$m=65536,t=2,p=1$c29tZXNhbHQ$CTFhFdXPJO1aFaMaO6Mm5c8y7cJHAph8ArZWb2GRPPc"

def erin : Account := ⟨3, "", "erin", 0, 0, "", "", sampleHash⟩

/-- the text that is stored for this user is no hash -/
def frank : Account := ⟨4, "", "frank", 0, 0, "", "", "swordfish"⟩

end Account

/-- as far as one hash is concerned: it parses, and verifies one word -/
def PasswordHasher.sample : PasswordHasher where
  Hash := Unit
  parse text := if text = Account.sampleHash then some () else none
  verifies _ password := password == "password"

namespace Database

def sample : Database := ⟨[.erin, .frank], [], true⟩

theorem distinct_sample : sample.Distinct := by
  intro a ha b hb hname
  have hcases : ∀ c ∈ sample.accounts, c = .erin ∨ c = .frank := by simp [sample]
  rcases hcases a ha with rfl | rfl <;> rcases hcases b hb with rfl | rfl
  · rfl
  · exact absurd hname (by decide)
  · exact absurd hname (by decide)
  · rfl

end Database

open Act Account in
/-- a user comes online whose account has been added in the course of the evening -/
theorem only_owners_get_in_late :
    let w := following threeLines (evening ++ [.elapse 10 .sample])
    let stream := [.other, .wait 10, .text (ClientPacket.login "ERIN" "password").text]
    ∃ s w' es, (logIn .sample stream "T4" 3).DoesAmid (.sparing fun _ => True) w (.ok s) w' es ∧
      s.profile = erin.profile ∧ w.hub.Admitted s w'.hub := by
  intro w stream
  have hcourse : Course Proper (.sparing fun _ => True) threeLines (evening ++ [.elapse 10 .sample])
      (greetings ++ [.nothing]) w := (course_evening _).proper.after 100 trivial rfl
  obtain ⟨-, hgate, -, -⟩ := only_owners_get_in .sample hcourse rfl Database.distinct_sample
    stream "T4" 3 nofun
  have hends : (logIn .sample stream "T4" 3).Ends w (.ok ⟨3, "T4", erin.profile, 3⟩)
      ((logIn .sample stream "T4" 3).after 60 w) := ends_after rfl
  obtain ⟨es, hgo⟩ := hends.amid
  obtain ⟨-, hnew, -⟩ := hgate _ _ _ hgo
  obtain ⟨-, -, hadmitted, -⟩ := hnew _ rfl
  exact ⟨_, _, es, hgo, rfl, hadmitted⟩

/-- a stored text that is no hash is opened by no password -/
example : Database.sample.authenticate .sample "frank" "swordfish" = .error .invalidCredentials :=
  rfl

end RhythmLobby
