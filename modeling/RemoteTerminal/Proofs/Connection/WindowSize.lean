/-
# A server's view of the window is never stale

The size of the window is kept in three places: in the configuration of a connection, in
its session, and in the bytes that were queued for the server.  A call of the connection
is a call of its session or nothing to it (`perform_of_telnet`, `perform_of_rlogin`), and
the first two places change together.  The third follows when the server is told, and
what there is to tell is told in the same call, whether or not it can be sent
(`window_reports_current`).
-/

import RemoteTerminal.Proofs.Connection.Lifecycle
import RemoteTerminal.Proofs.Rlogin.WindowReports
import RemoteTerminal.Proofs.Telnet.WindowReports

namespace RemoteTerminal
namespace Connection

/-! ### The configuration -/

/-- The configuration after a call. -/
def Call.configure (config : Config) (call : Call) : Config :=
  match call with
  | .resize lines columns => { config with lines, columns }
  | _ => config

theorem config_close (c : Connection) : c.close.config = c.config := by
  unfold close disconnect stopListening stopPending
  dsimp only
  split <;> split <;> split <;> rfl

/-- **A resize is remembered, and no other call changes the configuration.** -/
theorem config_perform (call : Call) (c : Connection) :
    (c.perform call).2.config = call.configure c.config := by
  cases call with
  | read room =>
    show (c.read room).2.config = c.config
    unfold read
    split <;> rfl
  | readUrgent =>
    show c.readUrgent.2.config = c.config
    unfold readUrgent
    split <;> rfl
  | write data =>
    show (c.write data).2.config = c.config
    unfold write
    split <;> rfl
  | flush =>
    show c.flush.2.config = c.config
    unfold flush
    split <;> rfl
  | resize lines columns =>
    show (c.resize lines columns).2.config = { c.config with lines, columns }
    unfold resize
    dsimp only
    split <;> rfl
  | command command =>
    show (c.sendCommand command).2.config = c.config
    unfold sendCommand
    split <;> rfl
  | attachSsh channel trusts =>
    show (c.attachSsh channel trusts).2.config = c.config
    unfold attachSsh
    split
    · rfl
    · rfl
    · split
      · rfl
      · exact config_close _
    · rfl
  | close => exact config_close c

theorem config_run (calls : List Call) (c : Connection) :
    (c.run calls).2.config = calls.foldl Call.configure c.config := by
  induction calls generalizing c with
  | nil => rfl
  | cons call rest ih =>
    have hrest : (c.run (call :: rest)).2.config = _ := ih (c.perform call).2
    rw [hrest, config_perform, List.foldl_cons]

theorem config_ofTransport (t : Transport) (protocol : Protocol) (config : Config)
    (role : Telnet.Role) : (ofTransport t protocol config role).2.config = config := by
  unfold ofTransport establish
  split
  · rfl
  · split <;> rfl

/-- A connection that was made runs the engine of its protocol, which has begun. -/
theorem engine_ofTransport {t : Transport} {protocol : Protocol} {config : Config}
    {role : Telnet.Role} (hmade : (ofTransport t protocol config role).2.isConnected = true) :
    ∃ e, Engine.create? protocol config role t = some e ∧
      (ofTransport t protocol config role).2.engine = some e.start.2.takeNotes.2 := by
  unfold ofTransport establish at hmade ⊢
  cases he : Engine.create? protocol config role t with
  | none =>
    rw [he] at hmade
    cases hmade
  | some e =>
    refine ⟨e, rfl, ?_⟩
    simp only [he] at hmade ⊢
    cases hs : e.start with
    | mk result e' =>
      cases result with
      | error error =>
        rw [hs] at hmade
        cases hmade
      | ok => rfl

/-! ### Calls of sessions -/

/-- What a call is to a telnet session, if it is anything. -/
def Call.toTelnet? : Call → Option Telnet.Call
  | .read room => some (.read room)
  | .write data => some (.write data)
  | .flush => some .flush
  | .resize lines columns => some (.resize ⟨columns, lines⟩)
  | .command cmd => some (.command cmd)
  | .readUrgent | .attachSsh _ _ | .close => none

/-- What a call is to an rlogin session, if it is anything. -/
def Call.toRlogin? : Call → Option Rlogin.Call
  | .read room => some (.read room)
  | .readUrgent => some .readUrgent
  | .write data => some (.write data)
  | .flush => some .flush
  | .resize lines columns => some (.resize lines columns)
  | .command _ | .attachSsh _ _ | .close => none

/-- A call after which a connection is established was none that closes it. -/
theorem ne_close_of_isConnected {c : Connection} {call : Call}
    (hgo : (c.perform call).2.isConnected = true) : call ≠ .close := by
  rintro rfl
  have hclosed : (c.perform .close).2.isConnected = false := isConnected_close c
  rw [hclosed] at hgo
  cases hgo

/-- **A call of a connection over telnet** is a call of its session, or nothing to it; the
notes that are taken from it are not seen. -/
theorem perform_of_telnet {c : Connection} {s : Telnet.Session} (h : c.engine = some (.telnet s))
    {call : Call} (hgo : (c.perform call).2.isConnected = true) :
    ∃ s', (c.perform call).2.engine = some (.telnet s') ∧
      s'.view = (s.run call.toTelnet?.toList).2.view := by
  have hclose := ne_close_of_isConnected hgo
  let taken (s' : Telnet.Session) : Telnet.Session :=
    { s' with line := { s'.line with journal := [] } }
  cases c
  dsimp only at h
  subst h
  cases call with
  | close => exact absurd rfl hclose
  | read room => exact ⟨taken (s.read room).2, rfl, rfl⟩
  | write data => exact ⟨taken (s.write data).2, rfl, rfl⟩
  | flush => exact ⟨taken s.flush.2, rfl, rfl⟩
  | resize lines columns => exact ⟨taken (s.resize ⟨columns, lines⟩).2, rfl, rfl⟩
  | command cmd => exact ⟨taken (s.sendCommand cmd).2, rfl, rfl⟩
  | readUrgent => exact ⟨taken s, rfl, rfl⟩
  | attachSsh => exact ⟨s, rfl, rfl⟩

theorem perform_of_rlogin {c : Connection} {s : Rlogin.Session} (h : c.engine = some (.rlogin s))
    {call : Call} (hgo : (c.perform call).2.isConnected = true) :
    ∃ s', (c.perform call).2.engine = some (.rlogin s') ∧
      s'.view = (s.run call.toRlogin?.toList).2.view := by
  have hclose := ne_close_of_isConnected hgo
  let taken (s' : Rlogin.Session) : Rlogin.Session :=
    { s' with line := { s'.line with journal := [] } }
  cases c
  dsimp only at h
  subst h
  cases call with
  | close => exact absurd rfl hclose
  | read room => exact ⟨taken (s.read room).2, rfl, rfl⟩
  | write data => exact ⟨taken (s.write data).2, rfl, rfl⟩
  | flush => exact ⟨taken s.flush.2, rfl, rfl⟩
  | resize lines columns => exact ⟨taken (s.resize lines columns).2, rfl, rfl⟩
  | readUrgent => exact ⟨taken s.readUrgent.2, rfl, rfl⟩
  | command => exact ⟨s, rfl, rfl⟩
  | attachSsh => exact ⟨s, rfl, rfl⟩

theorem takeNotes_start_telnet (s : Telnet.Session) :
    ∃ s', (Engine.telnet s).start.2.takeNotes.2 = .telnet s' ∧ s'.view = s.start.2.view :=
  ⟨{ s.start.2 with line := { s.start.2.line with journal := [] } }, rfl, rfl⟩

theorem takeNotes_start_rlogin (s : Rlogin.Session) :
    ∃ s', (Engine.rlogin s).start.2.takeNotes.2 = .rlogin s' ∧ s'.view = s.start.2.view :=
  ⟨{ s.start.2 with line := { s.start.2.line with journal := [] } }, rfl, rfl⟩

/-! ### Over telnet -/

/-- A server's view of the window is not stale: `sizes` were reported over telnet. -/
structure CurrentTelnet (sizes : List Telnet.WindowSize) (s : Telnet.Session) (c : Connection) :
    Prop where
  engine_eq : c.engine = some (.telnet s)
  /-- The output, sent or pending, reports these sizes. -/
  reports : Telnet.Reports (s.outbox.output s.line) sizes
  /-- If reports are on, the last of them is the size that is configured. -/
  last_eq : s.codec.flags.windowSize = true →
    sizes.getLast? = some ⟨c.config.columns, c.config.lines⟩
  /-- It is then what a server knows that decodes the output. -/
  peerWindow_eq : s.codec.flags.windowSize = true →
    (({ role := .server } : Telnet.Codec).decode (s.outbox.output s.line)).2.peerWindow =
      some ⟨c.config.columns, c.config.lines⟩

/-- A call has reported `new` sizes over telnet. -/
structure NewsTelnet (new : List Telnet.WindowSize) (call : Call) (s s' : Telnet.Session)
    (c' : Connection) : Prop where
  reports : ∃ more, s'.outbox.output s'.line = s.outbox.output s.line ++ more ∧
    Telnet.Reports more new
  /-- They are all the size that is configured after the call. -/
  current : ∀ size ∈ new, size = ⟨c'.config.columns, c'.config.lines⟩
  /-- While reports are off, a resize adds nothing to the output. -/
  quiet : s.codec.flags.windowSize = false → ∀ lines columns, call = .resize lines columns →
    s'.outbox.output s'.line = s.outbox.output s.line

/-- A connection whose session is abreast of the window that is configured. -/
structure AbreastTelnet (sizes : List Telnet.WindowSize) (s : Telnet.Session) (c : Connection) :
    Prop where
  engine_eq : c.engine = some (.telnet s)
  window_eq : s.codec.terminal.window = ⟨c.config.columns, c.config.lines⟩
  abreast : s.view.Abreast sizes

namespace AbreastTelnet

variable {sizes : List Telnet.WindowSize} {s : Telnet.Session} {c : Connection}

theorem current (h : AbreastTelnet sizes s c) : CurrentTelnet sizes s c := by
  have hlast (hon : s.codec.flags.windowSize = true) :
      sizes.getLast? = some ⟨c.config.columns, c.config.lines⟩ :=
    h.window_eq ▸ h.abreast.last_eq hon
  exact ⟨h.engine_eq, h.abreast.reports, hlast,
    fun hon => (h.abreast.reports.peerWindow_eq {}).trans (hlast hon)⟩

/-- What a call tells a server over telnet, by whether it is anything to the session. -/
theorem exists_tells (h : AbreastTelnet sizes s c) (call : Call) :
    let s' := (s.run call.toTelnet?.toList).2
    let config' := call.configure c.config
    s'.view.Settled ∧ ∃ new, Telnet.Codec.Tells ⟨config'.columns, config'.lines⟩ new
      s.view.speaker s'.view.speaker := by
  intro s' config'
  have hwindow := h.window_eq
  have hone (call' : Telnet.Call) (hcall : call.toTelnet? = some call')
      (hsized : call'.sized s.codec.terminal.window = ⟨config'.columns, config'.lines⟩) :
      s'.view.Settled ∧ ∃ new, Telnet.Codec.Tells ⟨config'.columns, config'.lines⟩ new
        s.view.speaker s'.view.speaker := by
    have hs' : s' = (s.perform call').2 := by
      show (s.run call.toTelnet?.toList).2 = _
      rw [hcall]
      rfl
    rw [hs', ← hsized]
    exact ⟨Telnet.Session.settled_perform call' h.abreast.settled,
      Telnet.Session.perform_tells call' h.abreast.settled h.abreast.client⟩
  cases call with
  | read room => exact hone (.read room) rfl hwindow
  | write data => exact hone (.write data) rfl hwindow
  | flush => exact hone .flush rfl hwindow
  | command cmd => exact hone (.command cmd) rfl hwindow
  | resize lines columns => exact hone (.resize ⟨columns, lines⟩) rfl rfl
  | readUrgent | attachSsh | close =>
    exact ⟨h.abreast.settled, [], hwindow ▸ .refl s.view.speaker⟩

/-- **Every call keeps a connection over telnet abreast.** -/
theorem perform (h : AbreastTelnet sizes s c) {call : Call}
    (hgo : (c.perform call).2.isConnected = true) :
    ∃ s' new, AbreastTelnet (sizes ++ new) s' (c.perform call).2 ∧
      NewsTelnet new call s s' (c.perform call).2 := by
  obtain ⟨s', hengine, hview⟩ := perform_of_telnet h.engine_eq hgo
  obtain ⟨hsettled, new, htells⟩ := h.exists_tells call
  rw [← config_perform, ← hview] at htells
  rw [← hview] at hsettled
  obtain ⟨habreast, hmore⟩ := h.abreast.tells hsettled htells
  refine ⟨s', new, ⟨hengine, htells.window_eq, habreast⟩, hmore, htells.current, ?_⟩
  rintro hoff lines columns rfl
  have hresized : s'.view = s.view.resize ⟨columns, lines⟩ :=
    hview.trans (Telnet.Session.view_resize ⟨columns, lines⟩ s)
  show s'.view.output = s.view.output
  rw [hresized]
  exact Telnet.View.output_resize_of_off hoff _

/-- As long as a connection over telnet is established, it is abreast. -/
theorem run (calls : List Call) {c : Connection}
    (h : c.isConnected = true → ∃ sizes s, AbreastTelnet sizes s c)
    (hgo : (c.run calls).2.isConnected = true) :
    ∃ sizes s, AbreastTelnet sizes s (c.run calls).2 := by
  induction calls generalizing c with
  | nil => exact h hgo
  | cons call rest ih =>
    refine ih (fun hcall => ?_) hgo
    obtain ⟨sizes, s, htells⟩ := h ((isConnected_perform_iff call c).1 hcall).1
    obtain ⟨s', new, hnext, -⟩ := htells.perform hcall
    exact ⟨_, s', hnext⟩

end AbreastTelnet

/-- A connection over telnet is abreast from the beginning, if it is made. -/
theorem abreastTelnet_ofTransport {t : Transport} {config : Config}
    (hmade : (ofTransport t.unused .telnet config .client).2.isConnected = true) :
    ∃ s, AbreastTelnet [] s (ofTransport t.unused .telnet config .client).2 := by
  obtain ⟨first, hfirst⟩ : ∃ s, s = Telnet.Session.fresh .client config.terminal config.bufferSize
    config.retryTimeout t := ⟨_, rfl⟩
  have hfresh : first.view.Abreast [] := by
    rw [hfirst]
    exact ⟨.fresh .., rfl, .nil, fun hon => nomatch hon⟩
  have htells := Telnet.View.start_tells first.view
  have hstarted := (hfresh.tells hfresh.settled.start htells).1
  have hwindow : first.view.start.codec.terminal.window =
      ⟨config.columns, config.lines⟩ := by
    refine htells.window_eq.trans ?_
    rw [hfirst]
    rfl
  obtain ⟨e, he, hengine⟩ := engine_ofTransport hmade
  have hmake : Engine.create? .telnet config .client t.unused = some (.telnet first) := by
    rw [hfirst]
    rfl
  obtain rfl := Option.some.inj (hmake.symm.trans he)
  obtain ⟨s, hs, hview⟩ := takeNotes_start_telnet first
  rw [← Telnet.Session.view_start, ← hview] at hstarted hwindow
  refine ⟨s, hengine.trans (congrArg some hs), ?_, hstarted⟩
  rw [config_ofTransport]
  exact hwindow

/-! ### Over rlogin -/

/-- What a call is in the ledger of an rlogin session. -/
def rloginEntry (call : Call) (c : Connection) : List Rlogin.Entry :=
  match c.engine with
  | some (.rlogin s) => s.entries call.toRlogin?.toList
  | _ => []

/-- What some calls are in the ledger of an rlogin session, made in order. -/
def rloginEntries : List Call → Connection → List Rlogin.Entry
  | [], _ => []
  | call :: rest, c => c.rloginEntry call ++ rloginEntries rest (c.perform call).2

/-- A server's view of the window is not stale: the ledger holds what was said over
rlogin. -/
structure CurrentRlogin (l : Rlogin.Ledger) (s : Rlogin.Session) (c : Connection) : Prop where
  engine_eq : c.engine = some (.rlogin s)
  /-- The output, sent or pending, is what the ledger holds. -/
  output_eq : s.outbox.output s.line = l.output
  /-- If the session is established, a server reads in the last report in it the size that
  is configured. -/
  last_eq : s.progress = .established →
    ∃ message, (Rlogin.reports l.stretches).getLast? = some message ∧
      Rlogin.WindowReport.ofBytes? message = some (.ofSize c.config.lines c.config.columns)

/-- A call has entered `new` stretches. -/
structure NewsRlogin (new : List Rlogin.Stretch) (call : Call) (l l' : Rlogin.Ledger)
    (s : Rlogin.Session) (c' : Connection) : Prop where
  stretches_eq : l'.stretches = l.stretches ++ new
  /-- A server reads in the reports among them the size that is configured after the
  call. -/
  current : ∀ message ∈ Rlogin.reports new,
    Rlogin.WindowReport.ofBytes? message = some (.ofSize c'.config.lines c'.config.columns)
  /-- Until the session is established, a resize enters nothing. -/
  quiet : s.progress ≠ .established → ∀ lines columns, call = .resize lines columns → new = []

/-- A connection whose session has a ledger that is abreast of the window that is
configured. -/
structure AbreastRlogin (l : Rlogin.Ledger) (s : Rlogin.Session) (c : Connection) : Prop where
  engine_eq : c.engine = some (.rlogin s)
  login_eq : l.login = c.config.login
  holds : Rlogin.Matches l s.view
  abreast : l.Abreast

namespace AbreastRlogin

variable {l : Rlogin.Ledger} {s : Rlogin.Session} {c : Connection}

theorem current (h : AbreastRlogin l s c) : CurrentRlogin l s c := by
  refine ⟨h.engine_eq, h.holds.output_eq.symm, fun hon => ?_⟩
  have hlast := h.abreast (h.holds.reporting_iff.2 hon)
  rw [h.login_eq] at hlast
  exact ⟨_, hlast, Rlogin.WindowReport.ofBytes?_windowMessage ..⟩

/-- What a call enters in the ledger, by whether it is anything to the session. -/
theorem exists_tells (h : AbreastRlogin l s c) (call : Call) :
    ∃ new, Rlogin.Ledger.Tells (call.configure c.config).login new l
      ((c.rloginEntry call).foldl Rlogin.Ledger.enter l) := by
  have hlogin := h.login_eq
  have hone (call' : Rlogin.Call) (hcall : call.toRlogin? = some call')
      (hsized : call'.sized l.login = (call.configure c.config).login) :
      ∃ new, Rlogin.Ledger.Tells (call.configure c.config).login new l
        ((c.rloginEntry call).foldl Rlogin.Ledger.enter l) := by
    rw [rloginEntry, h.engine_eq, hcall, ← hsized]
    exact l.enter_tells (s.entry call')
  cases call with
  | read room => exact hone (.read room) rfl hlogin
  | readUrgent => exact hone .readUrgent rfl hlogin
  | write data => exact hone (.write data) rfl hlogin
  | flush => exact hone .flush rfl hlogin
  | resize lines columns => exact hone (.resize lines columns) rfl (by rw [hlogin]; rfl)
  | command | attachSsh | close =>
    rw [rloginEntry, h.engine_eq]
    exact ⟨[], hlogin ▸ .refl l⟩

/-- **Every call keeps a connection over rlogin abreast.** -/
theorem perform (h : AbreastRlogin l s c) {call : Call}
    (hgo : (c.perform call).2.isConnected = true) :
    let l' := (c.rloginEntry call).foldl Rlogin.Ledger.enter l
    ∃ s' new, AbreastRlogin l' s' (c.perform call).2 ∧
      NewsRlogin new call l l' s (c.perform call).2 := by
  intro l'
  obtain ⟨s', hengine, hview⟩ := perform_of_rlogin h.engine_eq hgo
  obtain ⟨new, htells⟩ := h.exists_tells call
  rw [← config_perform] at htells
  refine ⟨s', new, ⟨hengine, htells.login_eq, ?_, htells.abreast h.abreast⟩,
    htells.stretches_eq, fun message hmessage => ?_, ?_⟩
  · rw [hview]
    show Rlogin.Matches ((c.rloginEntry call).foldl Rlogin.Ledger.enter l) _
    rw [rloginEntry, h.engine_eq]
    exact Rlogin.Session.matches_run _ h.holds
  · rw [htells.current message hmessage]
    exact Rlogin.WindowReport.ofBytes?_windowMessage ..
  · rintro hnot lines columns rfl
    have hoff : l.reporting = false := by
      rw [Bool.eq_false_iff]
      exact fun hon => hnot (h.holds.reporting_iff.1 hon)
    have hsame : l'.stretches = l.stretches := by
      show ((c.rloginEntry (.resize lines columns)).foldl Rlogin.Ledger.enter l).stretches = _
      rw [rloginEntry, h.engine_eq]
      exact Rlogin.Ledger.stretches_enter_resize (e := s.entry (.resize lines columns)) rfl hoff
    exact List.append_cancel_left ((htells.stretches_eq.symm.trans hsame).trans
      (List.append_nil _).symm)

/-- As long as a connection over rlogin is established, it is abreast. -/
theorem run (calls : List Call) {l : Rlogin.Ledger} {c : Connection}
    (h : c.isConnected = true → ∃ s, AbreastRlogin l s c)
    (hgo : (c.run calls).2.isConnected = true) :
    ∃ s, AbreastRlogin ((c.rloginEntries calls).foldl Rlogin.Ledger.enter l) s (c.run calls).2 := by
  induction calls generalizing l c with
  | nil => exact h hgo
  | cons call rest ih =>
    rw [rloginEntries, List.foldl_append]
    refine ih (fun hcall => ?_) hgo
    obtain ⟨s, hbefore⟩ := h ((isConnected_perform_iff call c).1 hcall).1
    obtain ⟨s', new, hnext, -⟩ := hbefore.perform hcall
    exact ⟨s', hnext⟩

end AbreastRlogin

/-- A connection over rlogin is abreast from the beginning, if it is made: it is made by
the client, who logs in first. -/
theorem abreastRlogin_ofTransport {t : Transport} {config : Config} {role : Telnet.Role}
    (hmade : (ofTransport t.unused .rlogin config role).2.isConnected = true) :
    ∃ s, AbreastRlogin (Rlogin.Ledger.start { login := config.login }) s
      (ofTransport t.unused .rlogin config role).2 := by
  obtain ⟨e, he, hengine⟩ := engine_ofTransport hmade
  cases role with
  | server => cases he
  | client =>
    obtain ⟨first, hfirst⟩ : ∃ s, s = Rlogin.Session.fresh config.login config.bufferSize
      config.retryTimeout t := ⟨_, rfl⟩
    have hfresh : Rlogin.Matches { login := config.login } first.view := by
      rw [hfirst]
      exact ⟨rfl, by simp [Rlogin.Session.fresh, Rlogin.Session.create, Rlogin.Session.view],
        by simp [Rlogin.Session.fresh, Rlogin.Session.create, Rlogin.Session.view,
          Progress.isStarted], rfl⟩
    have hstarted := hfresh.start
    have hmake : Engine.create? .rlogin config .client t.unused = some (.rlogin first) := by
      rw [hfirst]
      rfl
    obtain rfl := Option.some.inj (hmake.symm.trans he)
    obtain ⟨s, hs, hview⟩ := takeNotes_start_rlogin first
    rw [← Rlogin.Session.view_start, ← hview] at hstarted
    refine ⟨s, hengine.trans (congrArg some hs), ?_, hstarted, fun hon => ?_⟩
    · rw [config_ofTransport]
      rfl
    · cases hon

/-! ### Never stale -/

/-- **A server's view of the window is never stale.**  This is so for every transport and
configuration, over all calls in any order, with whatever outcomes and for all that a
transport may answer, and in every connection that is then established, by a client over
telnet or over rlogin.

* The size that is configured is that of the last resize, or else the one that the
  connection began with.
* Over telnet, if reports are on, the last size that is reported in the output, sent or
  pending, is the one that is configured; a server knows it that decodes the output.
* Over rlogin, if the session is established, a server reads in the last report in the
  output the lines and columns that are configured, nine pixels for a column and sixteen
  for a line, as far as these can be told.
* Whatever one more call reports is of the size that is configured after it; and a resize
  adds nothing to the output if reports are off, or the session is not established. -/
theorem window_reports_current (t : Transport) (config : Config) (role : Telnet.Role)
    (calls : List Call) :
    let c := ((ofTransport t.unused .telnet config .client).2.run calls).2
    let first := (ofTransport t.unused .rlogin config role).2
    let d := (first.run calls).2
    let ledger :=
      (first.rloginEntries calls).foldl Rlogin.Ledger.enter (.start { login := config.login })
    (c.config = calls.foldl Call.configure config ∧ d.config = calls.foldl Call.configure config) ∧
      (c.isConnected = true → ∃ sizes s, CurrentTelnet sizes s c ∧
        ∀ call, (c.perform call).2.isConnected = true →
          ∃ s' new, CurrentTelnet (sizes ++ new) s' (c.perform call).2 ∧
            NewsTelnet new call s s' (c.perform call).2) ∧
      (d.isConnected = true → ∃ s, CurrentRlogin ledger s d ∧
        ∀ call, (d.perform call).2.isConnected = true →
          let next := (d.rloginEntry call).foldl Rlogin.Ledger.enter ledger
          ∃ s' new, CurrentRlogin next s' (d.perform call).2 ∧
            NewsRlogin new call ledger next s (d.perform call).2) := by
  intro c first d ledger
  refine ⟨⟨?_, ?_⟩, fun hc => ?_, fun hd => ?_⟩
  · rw [config_run, config_ofTransport]
  · rw [config_run, config_ofTransport]
  · obtain ⟨sizes, s, h⟩ :=
      AbreastTelnet.run calls (fun hmade => ⟨[], abreastTelnet_ofTransport hmade⟩) hc
    refine ⟨sizes, s, h.current, fun call hcall => ?_⟩
    obtain ⟨s', new, h', hnews⟩ := h.perform hcall
    exact ⟨s', new, h'.current, hnews⟩
  · obtain ⟨s, h⟩ := AbreastRlogin.run calls abreastRlogin_ofTransport hd
    refine ⟨s, h.current, fun call hcall => ?_⟩
    obtain ⟨s', new, h', hnews⟩ := h.perform hcall
    exact ⟨s', new, h'.current, hnews⟩

/-- A server switches reports on, off and on again; the report that is due then cannot be
sent, and waits to be. -/
example :
    let t : Transport :=
      { incoming := [.ok [255, 253, 31], .ok [255, 254, 31], .ok [255, 253, 31]]
        outgoing := [.accept 99, .accept 99, .accept 99, .accept 99, .fail .brokenPipe 0] }
    let calls : List Call :=
      [.resize 30 90, .read 1, .resize 40 100, .read 1, .resize 50 110, .read 1]
    ((ofTransport t .telnet {} .client).2.run calls).2.engine.bind (fun
        | .telnet s =>
          some (s.outbox.pending,
            (({ role := .server } : Telnet.Codec).decode (s.outbox.output s.line)).2.peerWindow)
        | _ => none) =
      some ([255, 251, 31] ++ Telnet.reportWindow ⟨110, 50⟩, some ⟨110, 50⟩) := by
  decide +kernel

end Connection
end RemoteTerminal
