/-
Module: NetworkLabs.FtpProofs.View
Layer: FtpProofs
Purpose: What a session is for: the files of both sides and the current directory of the server, and what
  each command is meant to do to them. The two programs answer every command as meant: typed at rest, a
  command leads in lockstep to rest again.
Trusted boundary: the definitions of `View`, `View.perform` and `View.Admitted` state the purpose of the
  programs
Main exports: View, View.perform, View.Admitted, AtRest, ftpSession, ftpSession_answers
-/
import NetworkLabs.FtpProofs.Requesting
import NetworkLabs.FtpProofs.Steady

namespace NetworkLabs.Ftp

open Lib

/-- Before `open`, between `open` and `quit`, and after `quit`. -/
inductive Phase where
  | fresh
  | connected
  | closed
deriving DecidableEq, Repr

/-- A session as its user sees it. -/
structure View where
  phase : Phase
  /-- The client has ended. -/
  ended : Bool
  /-- The files of the client. -/
  here : FileSystem
  /-- The files of the server. -/
  there : FileSystem
  /-- The current directory of the server. -/
  dir : Path
  /-- The last exchange was an upload, which the client does not wait for. -/
  uploading : Bool

namespace View

/-- Where the server finds a file. -/
def remotePath (view : View) (name : Path) : Path := FileSystem.join view.dir name

/-- Where `cd` leads. -/
def remoteDir (view : View) (name : Path) : Path :=
  view.there.absolute (FileSystem.join view.dir name)

/-- What a command is meant to do. -/
def perform (view : View) : Command → View
  | .open _ _ => if view.phase = .fresh then { view with phase := .connected } else view
  | .cd name =>
      if view.phase = .connected then
        if view.there.lookup (view.remoteDir name) = .directory then
          { view with dir := view.remoteDir name, uploading := false }
        else { view with uploading := false }
      else view
  | .get name =>
      if view.phase = .connected then
        match view.there.lookup (view.remotePath name) with
        | .regular content => { view with here := view.here.store name content, uploading := false }
        | _ => { view with uploading := false }
      else view
  | .put name =>
      if view.phase = .connected then
        match view.here.lookup name with
        | .regular content =>
            { view with there := view.there.store (view.remotePath name) content, uploading := true }
        | _ => view
      else view
  | .sha256 _ => if view.phase = .connected then { view with uploading := false } else view
  | .quit =>
      if view.phase = .connected then { view with phase := .closed, uploading := false }
      else { view with ended := true }
  | .ls => view
  | .invalid => view

/-- A name that a request can carry. -/
structure GoodName (name : Path) : Prop where
  nonempty : name ≠ []
  fits : name.length ≤ 2035
  zeroFree : 0 ∉ name

/-- A command whose file operations succeed on both sides, with contents of fewer than `2 ^ 32 - 12`
    bytes and an output of `sha256sum` that is shorter than its buffer. -/
def Admitted (shell : Shell) (view : View) : Command → Prop
  | .open serverIp serverPort =>
      view.phase = .fresh ∧ serverIp ≠ [] ∧ serverPort ≠ [] ∧ (stoi serverPort).isSome = true
  | .cd name =>
      GoodName name ∧ (view.phase = .connected →
        view.there.allows .examine (view.there.place (view.remoteDir name)) = true)
  | .get name =>
      GoodName name ∧ (view.phase = .connected →
        view.there.allows .examine (view.there.place (view.remotePath name)) = true ∧
        ∀ content, view.there.lookup (view.remotePath name) = .regular content →
          content.length < 2 ^ 32 - 12 ∧ view.there.Readable (view.remotePath name) content ∧
            view.here.Writable name content)
  | .put name =>
      GoodName name ∧ (view.phase = .connected →
        view.here.allows .examine (view.here.place name) = true ∧
        (view.here.lookup name = .absent ∨ ∃ content, content.length < 2 ^ 32 - 12 ∧
          view.here.Readable name content ∧ view.there.Writable (view.remotePath name) content))
  | .sha256 name =>
      GoodName name ∧ (view.phase = .connected →
        view.there.allows .examine (view.there.place (view.remotePath name)) = true ∧
        ∀ content, view.there.lookup (view.remotePath name) = .regular content →
          ∃ output, shell view.there (sha256sumCommand ++ view.remotePath name) = some output ∧
            output.length < maxBufferSize)
  | .quit => True
  | .ls => False
  | .invalid => False

end View

section

variable (memory : Memory) (shell : Shell)

/-- What the serving thread does while the client is at its prompt. -/
def Serves (view : View) (q : Process Served) : Prop :=
  ∃ server : Server, server.files = view.there ∧ server.currentDir = view.dir ∧
    q = match view.phase with
      | .fresh => acceptClient memory server
      | .connected => .done (.next server)
      | .closed => .done (.ended server)

/-- Both streams are empty, the client is at its prompt or has ended, and the serving thread waits for a
    request, or has ended. -/
structure AtRest (view : View) (c : FtpNet) : Prop where
  client : ∃ client, c.left.result = some client ∧ client.files = view.here ∧
    client.ended = view.ended ∧ (client.info ≠ none ↔ view.phase = .connected) ∧
    (view.phase = .fresh → view.ended = false → client.sock = .unconnected)
  server : Serves memory view c.right
  toRight : c.toRight = []
  toLeft : c.toLeft = []

/-- The session of the two programs. -/
def ftpSession : Session Command (Process Client) (Process Served) View where
  perform := View.perform
  admitted := View.Admitted shell
  pending := View.uploading
  rest := AtRest memory

end

section

variable {memory : Memory} {shell : Shell} {view : View} {c : FtpNet}

/-- A party that waits for bytes cannot move while there are none. -/
theorem not_transfer_of_recv {α : Type} {act : Act Command (Process α)} {harmless : List Byte → Prop}
    (h : act = .stop ∨ ∃ len next, act = .recv len next) {call : Call} {count : ℕ} {p : Process α}
    {inbox out : List Byte} : ¬act.Transfer harmless [] call count p inbox out := by
  rintro hmove
  rcases h with rfl | ⟨len, next, rfl⟩
  · cases hmove
  · cases hmove with
    | recv hpos _ hin _ =>
        have hzero : count ≤ 0 := hin
        omega

/-- A program that starts with `safe_recv` waits for bytes. -/
theorem safeRecv_bind_eq {α : Type} {buffer : List Byte} {len : ℕ} (hpos : len ≠ 0)
    (hfits : len ≤ buffer.length) (f : Option ℕ × List Byte → Process α) :
    ∃ next, safeRecv buffer len >>= f = .recv len next := by
  rw [safeRecv, safeRecvUntil, if_pos hfits, recvLoop_eq hpos, Process.recv_bind]
  exact ⟨_, rfl⟩

/-- The first act of a program that starts with `safe_recv`. -/
theorem act_safeRecv {α : Type} (atEnd : α → Act Command (Process α)) {buffer : List Byte} {len : ℕ}
    (hpos : len ≠ 0) (hfits : len ≤ buffer.length) (f : Option ℕ × List Byte → Process α) :
    ∃ next, (safeRecv buffer len >>= f).act atEnd = .recv len next := by
  obtain ⟨next, hnext⟩ := safeRecv_bind_eq hpos hfits f
  exact ⟨next, by rw [hnext, Process.act]⟩

/-- The serving thread waits for bytes, or has ended. -/
theorem Serves.waits {q : Process Served} (h : Serves memory view q) :
    serverAct memory shell q = .stop ∨ ∃ len next, serverAct memory shell q = .recv len next := by
  obtain ⟨server, -, -, rfl⟩ := h
  have hfits : ∀ turn name, packetSize ≤ (memory.buffer turn name).length := by
    simp [packetSize, maxBufferSize]
  cases view.phase with
  | fresh =>
      obtain ⟨next, hact⟩ := act_safeRecv (servedAct memory shell) (by decide)
        (hfits server.turn "buffer") _
      exact .inr ⟨packetSize, next, hact⟩
  | connected =>
      obtain ⟨next, hact⟩ := act_safeRecv (fun _ : Served => .stop) (by decide)
        (hfits server.turn "request_buffer") _
      exact .inr ⟨packetSize, next, hact⟩
  | closed => exact .inl rfl

theorem promptAct_cases (memory : Memory) (client : Client) :
    client.ended = true ∧ promptAct memory client = .stop ∨
      client.ended = false ∧ promptAct memory client = .input (client.command memory) := by
  rw [promptAct]
  cases client.ended with
  | true => exact .inl ⟨rfl, rfl⟩
  | false => exact .inr ⟨rfl, rfl⟩

theorem AtRest.settled (h : AtRest memory view c) :
    Net.Settled (clientAct memory) (serverAct memory shell) c := by
  obtain ⟨client, hresult, -⟩ := h.client
  have hact : clientAct memory c.left = promptAct memory client := Process.act_of_result hresult
  refine ⟨?_, ?_⟩
  · intro harmless call count s inbox out hmove
    rw [hact] at hmove
    rcases promptAct_cases memory client with ⟨-, hprompt⟩ | ⟨-, hprompt⟩
    · rw [hprompt] at hmove
      cases hmove
    · rw [hprompt] at hmove
      cases hmove
  · intro harmless call count t inbox out hmove
    rw [h.toRight] at hmove
    exact not_transfer_of_recv h.server.waits hmove

/-- The client that has just finished a command of a connected session. -/
theorem atRest_connected {client : Client} {server : Server} (hfiles : client.files = view.here)
    (hended : client.ended = view.ended) (hinfo : client.info ≠ none)
    (hphase : view.phase = .connected) (hthere : server.files = view.there)
    (hdir : server.currentDir = view.dir) :
    AtRest memory view ⟨createSocket client, .done (.next server), [], []⟩ := by
  obtain ⟨client', hresult, hinfo', hended', hfiles', -⟩ := result_createSocket client
  refine ⟨⟨client', hresult, hfiles'.trans hfiles, hended'.trans hended, ?_, ?_⟩, ?_, rfl, rfl⟩
  · simp [hphase, hinfo', hinfo]
  · simp [hphase]
  · exact ⟨server, hthere, hdir, by rw [hphase]⟩

/-- A command, typed at a prompt at which everything is at rest, is answered as meant. -/
def Answered (memory : Memory) (shell : Shell) (view : View) (command : Command) (client : Client)
    (q : Process Served) : Prop :=
  ∃ d last, AtRest memory (view.perform command) d ∧
    Leads memory shell ⟨client.command memory command, q, [], []⟩ d last ∧
    ((view.perform command).uploading = false →
      last = some .send ∨ last = none ∧ view.uploading = false)

/-- The client at the prompt of a view. -/
structure AtPrompt (view : View) (client : Client) : Prop where
  files : client.files = view.here
  running : client.ended = false
  ended : view.ended = false
  info : client.info ≠ none ↔ view.phase = .connected
  sock : view.phase = .fresh → client.sock = .unconnected

variable {client : Client} {q : Process Served} {name : Path}

/-- A command that the client answers by itself, without touching the view. -/
theorem answered_alone (hclient : AtPrompt view client) (hserver : Serves memory view q)
    {command : Command} (hperform : view.perform command = view) {line : String}
    (hrun : (runCommand memory client command).result = some (client.print line)) :
    Answered memory shell view command client q := by
  obtain ⟨client', hresult, hinfo, hended, hfiles, hsock⟩ := result_createSocket (client.print line)
  refine ⟨_, none, ?_, .refl _, fun h => .inr ⟨rfl, hperform ▸ h⟩⟩
  rw [hperform]
  refine ⟨⟨client', ?_, hfiles.trans hclient.files, ?_, ?_, ?_⟩, hserver, rfl, rfl⟩
  · rw [Client.command, Process.result_bind, hrun]
    exact hresult
  · rw [hended, hclient.ended]
    exact hclient.running
  · rw [hinfo]
    exact hclient.info
  · intro hphase _
    have hclosed : (client.print line).sock = .unconnected := hclient.sock hphase
    rw [hsock (by rw [hclosed]; simp), hclosed]

/-- Without a connection the commands that need one do nothing. -/
theorem answered_offline (hclient : AtPrompt view client) (hserver : Serves memory view q)
    (hphase : view.phase ≠ .connected) {command : Command} (hname : name ≠ [])
    (hcommand : command = .cd name ∨ command = .get name ∨ command = .put name ∨ command = .sha256 name) :
    Answered memory shell view command client q := by
  have hinfo : client.info = none := by
    by_contra h
    exact hphase (hclient.info.mp h)
  have hrun := runCommand_offline memory hinfo hname hcommand
  refine answered_alone hclient hserver ?_ (by rw [hrun]; rfl)
  rcases hcommand with rfl | rfl | rfl | rfl <;> simp [View.perform, hphase]

theorem filePath_eq {server : Server} (hdir : server.currentDir = view.dir)
    (hname : View.GoodName name) : server.filePath (cutName name) = view.remotePath name := by
  rw [cutName_of_zeroFree hname.zeroFree, Server.filePath, View.remotePath, hdir]

section

variable {server : Server} (hclient : AtPrompt view client) (hphase : view.phase = .connected)
  (hthere : server.files = view.there) (hdir : server.currentDir = view.dir)

include hclient hphase hthere hdir

omit hthere hdir in
/-- The client after a command that leaves the connection alone. -/
theorem AtPrompt.atRest {view' : View} {client' : Client} {server' : Server}
    (hcontinues : client.Continues client') (hended : view'.ended = view.ended)
    (hphase' : view'.phase = .connected) (hfiles : client'.files = view'.here)
    (hthere' : server'.files = view'.there) (hdir' : server'.currentDir = view'.dir) :
    AtRest memory view' ⟨createSocket client', .done (.next server'), [], []⟩ := by
  refine atRest_connected hfiles ?_ ?_ hphase' hthere' hdir'
  · rw [hcontinues.ended, hclient.running, hended, hclient.ended]
  · rw [hcontinues.info]
    exact hclient.info.mpr hphase

theorem answered_cd (hname : View.GoodName name)
    (hexamine : view.there.allows .examine (view.there.place (view.remoteDir name)) = true) :
    Answered memory shell view (.cd name) client (.done (.next server)) := by
  have hinfo : client.info ≠ none := hclient.info.mpr hphase
  have hpath : server.dirPath (cutName name) = view.remoteDir name := by
    rw [cutName_of_zeroFree hname.zeroFree, Server.dirPath, View.remoteDir, hthere, hdir]
  rw [← hthere, ← hpath] at hexamine
  by_cases hfound : server.files.lookup (server.dirPath (cutName name)) = .directory
  · obtain ⟨client', hcontinues, hfiles, hrun⟩ := command_cd memory shell
      hname.fits hname.nonempty hinfo hexamine hfound
    have hperform : view.perform (.cd name) =
        { view with dir := view.remoteDir name, uploading := false } := by
      rw [hpath, hthere] at hfound
      rw [View.perform, if_pos hphase, if_pos hfound]
    refine ⟨_, _, ?_, hrun, fun _ => .inl rfl⟩
    rw [hperform]
    exact hclient.atRest hphase hcontinues rfl hphase (hfiles.trans hclient.files) hthere hpath
  · obtain ⟨client', hcontinues, hfiles, hrun⟩ := command_cd_missing memory shell
      hname.fits hname.nonempty hinfo hexamine hfound
    have hperform : view.perform (.cd name) = { view with uploading := false } := by
      rw [hpath, hthere] at hfound
      rw [View.perform, if_pos hphase, if_neg hfound]
    refine ⟨_, _, ?_, hrun, fun _ => .inl rfl⟩
    rw [hperform]
    exact hclient.atRest hphase hcontinues rfl hphase (hfiles.trans hclient.files) hthere hdir

theorem answered_get (hname : View.GoodName name)
    (hexamine : view.there.allows .examine (view.there.place (view.remotePath name)) = true)
    (hfiles : ∀ content, view.there.lookup (view.remotePath name) = .regular content →
      content.length < 2 ^ 32 - 12 ∧ view.there.Readable (view.remotePath name) content ∧
        view.here.Writable name content) :
    Answered memory shell view (.get name) client (.done (.next server)) := by
  have hinfo : client.info ≠ none := hclient.info.mpr hphase
  have hpath : server.filePath (cutName name) = view.remotePath name :=
    filePath_eq hdir hname
  by_cases hfound : ∃ content, view.there.lookup (view.remotePath name) = .regular content
  · obtain ⟨content, hfound⟩ := hfound
    obtain ⟨hsize, hreadable, hwritable⟩ := hfiles content hfound
    rw [← hthere, ← hpath] at hreadable
    rw [← hclient.files] at hwritable
    obtain ⟨client', hcontinues, hfiles', hrun⟩ := command_get memory shell
      hname.fits hname.nonempty hinfo hsize hreadable hwritable
    have hperform : view.perform (.get name) =
        { view with here := view.here.store name content, uploading := false } := by
      simp only [View.perform, if_pos hphase, hfound]
    refine ⟨_, _, ?_, hrun, fun _ => .inl rfl⟩
    rw [hperform]
    refine hclient.atRest hphase hcontinues rfl hphase ?_ hthere hdir
    rw [hfiles', hclient.files]
  · have hmissing : ∀ content, server.files.lookup (server.filePath (cutName name)) ≠
        .regular content := by
      intro content hcontent
      rw [hthere, hpath] at hcontent
      exact hfound ⟨content, hcontent⟩
    rw [← hthere, ← hpath] at hexamine
    obtain ⟨client', hcontinues, hfiles', hrun⟩ :=
      command_get_missing memory shell hname.fits hname.nonempty hinfo hexamine hmissing
    have hperform : view.perform (.get name) = { view with uploading := false } := by
      simp only [View.perform, if_pos hphase]
      split
      · next content hcontent => exact absurd ⟨content, hcontent⟩ hfound
      · rfl
    refine ⟨_, _, ?_, hrun, fun _ => .inl rfl⟩
    rw [hperform]
    exact hclient.atRest hphase hcontinues rfl hphase (hfiles'.trans hclient.files) hthere hdir

theorem answered_put (hname : View.GoodName name)
    (hexamine : view.here.allows .examine (view.here.place name) = true)
    (hfiles : view.here.lookup name = .absent ∨ ∃ content, content.length < 2 ^ 32 - 12 ∧
      view.here.Readable name content ∧ view.there.Writable (view.remotePath name) content) :
    Answered memory shell view (.put name) client (.done (.next server)) := by
  have hinfo : client.info ≠ none := hclient.info.mpr hphase
  have hpath : server.filePath (cutName name) = view.remotePath name :=
    filePath_eq hdir hname
  rcases hfiles with habsent | ⟨content, hsize, hreadable, hwritable⟩
  · have hexists : client.files.pathExists name = some false := by
      rw [hclient.files]
      simp [FileSystem.pathExists, FileSystem.status, hexamine, habsent]
    refine answered_alone hclient ⟨server, hthere, hdir, by rw [hphase]⟩ ?_
      (result_put_missing memory hname.nonempty hinfo hexists)
    simp [View.perform, hphase, habsent]
  · have hperform : view.perform (.put name) = { view with
        there := view.there.store (view.remotePath name) content, uploading := true } := by
      simp only [View.perform, if_pos hphase, hreadable.holds]
    rw [← hclient.files] at hreadable
    rw [← hthere, ← hpath] at hwritable
    obtain ⟨client', last, hcontinues, hfiles', hrun⟩ :=
      command_put memory shell hname.fits hname.nonempty hinfo hsize hreadable hwritable
    refine ⟨_, _, ?_, hrun, fun h => ?_⟩
    · rw [hperform]
      refine hclient.atRest hphase hcontinues rfl hphase (hfiles'.trans hclient.files) ?_ hdir
      rw [hthere, hpath]
    · rw [hperform] at h
      cases h

theorem answered_sha (hname : View.GoodName name)
    (hexamine : view.there.allows .examine (view.there.place (view.remotePath name)) = true)
    (houtput : ∀ content, view.there.lookup (view.remotePath name) = .regular content →
      ∃ output, shell view.there (sha256sumCommand ++ view.remotePath name) = some output ∧
        output.length < maxBufferSize) :
    Answered memory shell view (.sha256 name) client (.done (.next server)) := by
  have hinfo : client.info ≠ none := hclient.info.mpr hphase
  have hpath : server.filePath (cutName name) = view.remotePath name :=
    filePath_eq hdir hname
  have hperform : view.perform (.sha256 name) = { view with uploading := false } := by
    rw [View.perform, if_pos hphase]
  rw [← hthere, ← hpath] at hexamine houtput
  by_cases hfound : ∃ content, server.files.lookup (server.filePath (cutName name)) = .regular content
  · obtain ⟨content, hfound⟩ := hfound
    obtain ⟨output, hshell, hfits⟩ := houtput content hfound
    obtain ⟨client', hcontinues, hfiles', hrun⟩ := command_sha memory shell hname.fits
      hname.nonempty hinfo hexamine hfound hshell hfits
    refine ⟨_, _, ?_, hrun, fun _ => .inl rfl⟩
    rw [hperform]
    exact hclient.atRest hphase hcontinues rfl hphase (hfiles'.trans hclient.files) hthere hdir
  · obtain ⟨client', hcontinues, hfiles', hrun⟩ :=
      command_sha_missing memory shell hname.fits hname.nonempty hinfo hexamine
        fun content hcontent => hfound ⟨content, hcontent⟩
    refine ⟨_, _, ?_, hrun, fun _ => .inl rfl⟩
    rw [hperform]
    exact hclient.atRest hphase hcontinues rfl hphase (hfiles'.trans hclient.files) hthere hdir

theorem answered_quit : Answered memory shell view .quit client (.done (.next server)) := by
  have hinfo : client.info ≠ none := hclient.info.mpr hphase
  obtain ⟨client', hinfo', hsock, hended, hfiles, hrun⟩ := @command_quit memory shell client server hinfo
  obtain ⟨client'', hresult, hinfo'', hended', hfiles', -⟩ := result_createSocket client'
  have hperform : view.perform .quit = { view with phase := .closed, uploading := false } := by
    rw [View.perform, if_pos hphase]
  refine ⟨_, _, ?_, hrun, fun _ => .inl rfl⟩
  rw [hperform]
  refine ⟨⟨client'', hresult, (hfiles'.trans hfiles).trans hclient.files, ?_, ?_, ?_⟩,
    ⟨server.turned, hthere, hdir, rfl⟩, rfl, rfl⟩
  · rw [hended', hended, hclient.running, hclient.ended]
  · simp [hinfo'', hinfo']
  · simp

end

/-- `open`. -/
theorem answered_open (hclient : AtPrompt view client) (hserver : Serves memory view q)
    (hphase : view.phase = .fresh) {serverIp serverPort : List Byte} (hip : serverIp ≠ [])
    (hport : serverPort ≠ []) (hstoi : (stoi serverPort).isSome = true) :
    Answered memory shell view (.open serverIp serverPort) client q := by
  obtain ⟨server, hthere, hdir, hq⟩ := hserver
  simp only [hphase] at hq
  subst hq
  obtain ⟨port, hstoi⟩ := Option.isSome_iff_exists.mp hstoi
  obtain ⟨client', hinfo, hsock, hended, hfiles, hrun⟩ :=
    command_open memory shell server hip hport hstoi (hclient.sock hphase)
  have hperform : view.perform (.open serverIp serverPort) = { view with phase := .connected } := by
    rw [View.perform, if_pos hphase]
  refine ⟨_, _, ?_, hrun, fun _ => .inl rfl⟩
  rw [hperform]
  refine atRest_connected (hfiles.trans hclient.files) ?_ (by simp [hinfo]) rfl hthere hdir
  rw [hended, hclient.running, hclient.ended]

/-- `quit` without a connection ends the client. -/
theorem answered_quit_offline (hclient : AtPrompt view client) (hserver : Serves memory view q)
    (hphase : view.phase ≠ .connected) : Answered memory shell view .quit client q := by
  have hinfo : client.info = none := by
    by_contra h
    exact hphase (hclient.info.mp h)
  have hperform : view.perform .quit = { view with ended := true } := by
    rw [View.perform, if_neg hphase]
  have hresult : (client.command memory .quit).result =
      some { (client.print "Close Client").closeSock with ended := true, turn := client.turn + 1 } := by
    simp [Client.command, runCommand, quitCommand, hinfo, createSocket, Process.result, Client.closeSock,
      Client.print]
  refine ⟨_, none, ?_, .refl _, fun h => .inr ⟨rfl, ?_⟩⟩
  · rw [hperform]
    refine ⟨⟨_, hresult, hclient.files, rfl, ?_, fun _ h => by cases h⟩, hserver, rfl, rfl⟩
    exact hclient.info
  · rw [hperform] at h
    exact h

/-- The two programs answer every command as meant. -/
theorem ftpSession_answers :
    (ftpSession memory shell).Answers (clientAct memory) (serverAct memory shell) where
  settled := AtRest.settled
  read := AtRest.toLeft
  answer := by
    intro view c command next hrest hinput hadmitted
    obtain ⟨client, hresult, hfiles, hended, hinfo, hsock⟩ := hrest.client
    have hact : clientAct memory c.left = promptAct memory client := Process.act_of_result hresult
    rw [hact] at hinput
    have hclient : AtPrompt view client ∧ next = client.command memory := by
      rcases promptAct_cases memory client with ⟨-, hprompt⟩ | ⟨hrunning, hprompt⟩
      · rw [hprompt] at hinput
        cases hinput
      · rw [hprompt] at hinput
        have hview : view.ended = false := hended ▸ hrunning
        exact ⟨⟨hfiles, hrunning, hview, hinfo, fun h => hsock h hview⟩, by cases hinput; rfl⟩
    obtain ⟨hclient, rfl⟩ := hclient
    have hnet : { c with left := client.command memory command } =
        (⟨client.command memory command, c.right, [], []⟩ : FtpNet) := by
      rw [Net.mk.injEq]
      exact ⟨rfl, rfl, hrest.toRight, hrest.toLeft⟩
    suffices h : Answered memory shell view command client c.right by
      obtain ⟨d, last, hd, ⟨weight, hrun⟩, hlast⟩ := h
      exact ⟨d, weight, last, hd, hnet ▸ hrun, hlast⟩
    by_cases hphase : view.phase = .connected
    · obtain ⟨server, hthere, hdir, hq⟩ := hrest.server
      simp only [hphase] at hq
      rw [hq]
      cases command with
      | «open» => exact absurd (hphase.symm.trans hadmitted.1) (by simp)
      | ls => exact hadmitted.elim
      | cd name => exact answered_cd hclient hphase hthere hdir hadmitted.1 (hadmitted.2 hphase)
      | get name =>
          obtain ⟨hexamine, hget⟩ := hadmitted.2 hphase
          exact answered_get hclient hphase hthere hdir hadmitted.1 hexamine hget
      | put name =>
          obtain ⟨hexamine, hput⟩ := hadmitted.2 hphase
          exact answered_put hclient hphase hthere hdir hadmitted.1 hexamine hput
      | sha256 name =>
          obtain ⟨hexamine, hsha⟩ := hadmitted.2 hphase
          exact answered_sha hclient hphase hthere hdir hadmitted.1 hexamine hsha
      | quit => exact answered_quit hclient hphase hthere hdir
      | invalid => exact hadmitted.elim
    · cases command with
      | «open» =>
          obtain ⟨hfresh, hip, hport, hstoi⟩ := hadmitted
          exact answered_open hclient hrest.server hfresh hip hport hstoi
      | ls => exact hadmitted.elim
      | cd name => exact answered_offline hclient hrest.server hphase hadmitted.1.nonempty (.inl rfl)
      | get name =>
          exact answered_offline hclient hrest.server hphase hadmitted.1.nonempty (.inr (.inl rfl))
      | put name =>
          exact answered_offline hclient hrest.server hphase hadmitted.1.nonempty
            (.inr (.inr (.inl rfl)))
      | sha256 name =>
          exact answered_offline hclient hrest.server hphase hadmitted.1.nonempty
            (.inr (.inr (.inr rfl)))
      | quit => exact answered_quit_offline hclient hrest.server hphase
      | invalid => exact hadmitted.elim

end

end NetworkLabs.Ftp
