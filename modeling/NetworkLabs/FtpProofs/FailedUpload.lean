/-
Module: NetworkLabs.FtpProofs.FailedUpload
Layer: FtpProofs
Purpose: `put` of a local file that exists and cannot be opened or read. `upload_files` finds that out after
  the thread has been sent the request, and returns while the thread waits for the file. The session goes on
  as if nothing had been typed exactly where the upload never gets that far: without a connection, or where
  the size of the file cannot be had and the client ends. Otherwise the thread takes the next request for
  the file.
Trusted boundary: none
Main exports: FileSystem.Unreadable, UploadIntact, upload_failure_iff
-/
import NetworkLabs.FtpProofs.Segmentation

namespace NetworkLabs.Ftp

open Lib

/-- What a path leads to exists, and cannot be opened or read to its end. -/
structure FileSystem.Unreadable (files : FileSystem) (path : Path) : Prop where
  found : files.pathExists path = some true
  fails : files.canOpen path = false ∨
    ∀ size, files.fileSize path = some size → files.readFile path size = none

section

variable (memory : Memory) (shell : Shell)

/-- The session after a `put`, which is the command that the client has just been given: when the client
    is back at its prompt the thread is ready for a request and the files of the view are what they were,
    and every later command but `ls` does what it is meant to do. An upload that was still on the way before
    may still be. -/
def UploadIntact (view : View) (c : FtpNet) : Prop :=
  ∀ history c', (ftpSystem memory shell c).Run history c' →
    (∀ entry ∈ history, ZeroFreeRead memory shell entry.1 entry.2) →
    (ftpSession memory shell).Admits view (Net.typed history) →
    ∀ client, c'.left.result = some client → client.ended = false →
      ((ftpSession memory shell).performAll view (Net.typed history)).uploading = false ∨
        ServerIdle memory shell c' →
      AtRest memory ((ftpSession memory shell).performAll view (Net.typed history)) c'

variable {memory shell} {client : Client} {server : Server} {name : Path} {c : FtpNet} {view : View}

/-- `upload_files` gives up, or the client ends with an exception. -/
theorem sendFile_of_unreadable (h : client.files.Unreadable name) :
    client.files.fileSize name = none ∧ sendFile client name = .abort ∨
      client.files.fileSize name ≠ none ∧ ∃ line, sendFile client name = pure (client.print line) := by
  rw [sendFile]
  cases hsize : client.files.fileSize name with
  | none => exact .inl ⟨rfl, rfl⟩
  | some size =>
      refine .inr ⟨by simp, ?_⟩
      cases hopen : client.files.canOpen name with
      | false => exact ⟨"Failed to open file", by simp only [Bool.not_false, if_true]⟩
      | true =>
          have hread : client.files.readFile name size = none := by
            rcases h.fails with hclosed | hread
            · rw [hopen] at hclosed
              cases hclosed
            · exact hread size hsize
          exact ⟨"Failed to read file", by
            simp only [Bool.not_true, Bool.false_eq_true, if_false, hread]⟩

/-- While the thread waits for the file, it is not ready for a request. -/
theorem receiveFile_waits (memory : Memory) (server : Server) (fileName : List Byte) :
    ∃ next, receiveFile memory server fileName = .recv packetSize next := by
  rw [receiveFile]
  exact safeRecv_bind_eq (by decide) (by simp [packetSize, maxBufferSize]) _

/-- The thread cannot move while it waits for bytes and the client is at its prompt. -/
theorem serverIdle_of_waits {len : ℕ} {next : RecvResult → Process Served}
    (hright : c.right = .recv len next) (hread : c.toRight = []) (hresult : c.left.result = some client)
    (hrunning : client.ended = false) : ServerIdle memory shell c := by
  have hact : serverAct memory shell c.right = .recv len next := by rw [hright]; rfl
  intro move
  rw [Net.step, hact, hread, client_input hresult hrunning]
  cases move with
  | recv count =>
      have hnone : ¬(0 < count ∧ count ≤ len ∧ count ≤ ([] : List Byte).length) := by
        simp only [List.length_nil]
        omega
      simp only [Act.play, if_neg hnone, Option.map_none]
  | _ => rfl

/-- A state of a session at its prompt, and the rest that it is on its way to. -/
theorem FtpOnTrack.rest {weight : ℕ} (h : FtpOnTrack memory shell view c weight)
    (hresult : c.left.result = some client) (hrunning : client.ended = false) :
    ∃ d, AtRest memory view d ∧ d.left = c.left ∧ ∀ p, ∃ last,
      Leads memory shell { c with left := p } { d with left := p } last := by
  obtain ⟨d, last, hrest, hlock, -⟩ := h.way
  obtain ⟨hleft, hwith⟩ := hlock.with_left (client_input hresult hrunning)
  exact ⟨d, hrest, hleft, fun p => ⟨last, weight, hwith p⟩⟩

/-- With a connection, the request of an upload that cannot be read leaves the thread waiting for the
    file. -/
theorem leads_to_wait {weight : ℕ} (htrack : FtpOnTrack memory shell view c weight)
    (hresult : c.left.result = some client) (hrunning : client.ended = false)
    (hname : View.GoodName name) (hinfo : client.info ≠ none)
    (hfound : client.files.pathExists name = some true) :
    view.phase = .connected ∧ ∃ server fileName last,
      Leads memory shell { c with left := client.command memory (.put name) }
        ⟨sendFile client name >>= createSocket, receiveFile memory server fileName, [], []⟩ last := by
  obtain ⟨d, hrest, hleft, hleads⟩ := htrack.rest hresult hrunning
  obtain ⟨client', hresult', -, -, hinfo', -⟩ := hrest.client
  obtain rfl : client' = client := by
    rw [hleft, hresult] at hresult'
    exact (Option.some.inj hresult').symm
  have hphase := hinfo'.mp hinfo
  obtain ⟨server, -, -, hright⟩ := hrest.server
  simp only [hphase] at hright
  obtain ⟨last, hbefore⟩ := hleads (client'.command memory (.put name))
  have hnet : { d with left := client'.command memory (.put name) } =
      (⟨client'.command memory (.put name), .done (.next server), [], []⟩ : FtpNet) := by
    rw [Net.mk.injEq]
    exact ⟨rfl, hright, hrest.toRight, hrest.toLeft⟩
  rw [hnet] at hbefore
  have hput := @command_put_request memory shell client' server name hname.fits hname.nonempty hinfo
    hfound
  exact ⟨hphase, server.turned, _, _, hbefore.trans hput⟩

/-- Without a connection nothing happens. -/
theorem uploadIntact_offline {weight : ℕ} (htrack : FtpOnTrack memory shell view c weight)
    (hresult : c.left.result = some client) (hrunning : client.ended = false)
    (hname : View.GoodName name) (hinfo : client.info = none) :
    UploadIntact memory shell view { c with left := client.command memory (.put name) } := by
  obtain ⟨d, hrest, hleft, -⟩ := htrack.rest hresult hrunning
  obtain ⟨client', hresult', -, -, hinfo', -⟩ := hrest.client
  obtain rfl : client' = client := by
    rw [hleft, hresult] at hresult'
    exact (Option.some.inj hresult').symm
  have hphase : view.phase ≠ .connected := fun h => hinfo'.mpr h hinfo
  have hanswers := @ftpSession_answers memory shell
  have hclient := steady_client memory
  have hserver := steady_server memory shell
  have hadmitted : (ftpSession memory shell).admitted view (.put name) :=
    ⟨hname, fun h => absurd h hphase⟩
  obtain ⟨weight', htyped⟩ :=
    htrack.input hanswers hclient (client_input hresult hrunning) hadmitted
  have hperform : (ftpSession memory shell).perform view (.put name) = view := if_neg hphase
  rw [hperform] at htyped
  intro history c' hrun hok hadmits client'' hresult'' hrunning'' hdone
  obtain ⟨weight'', htrack'⟩ := Session.onTrack_of_run hanswers hclient hserver server_never_inputs
    htyped hrun hok hadmits
  refine htrack'.rest_of_prompt hanswers (client_input hresult'' hrunning'') ?_
  exact hdone.imp id fun hidle => not_whole_of_idle hidle

/-- If the client ends with an exception, it is not back at its prompt. -/
theorem uploadIntact_of_abort {weight : ℕ} (htrack : FtpOnTrack memory shell view c weight)
    (hresult : c.left.result = some client) (hrunning : client.ended = false)
    (hname : View.GoodName name) (hinfo : client.info ≠ none)
    (hfound : client.files.pathExists name = some true) (habort : sendFile client name = .abort) :
    UploadIntact memory shell view { c with left := client.command memory (.put name) } := by
  obtain ⟨-, server, fileName, last, weight', hleads⟩ :=
    leads_to_wait htrack hresult hrunning hname hinfo hfound
  rw [habort, Process.abort_bind] at hleads
  obtain ⟨next, hwaits⟩ := receiveFile_waits memory server fileName
  have hact : serverAct memory shell (receiveFile memory server fileName) = .recv packetSize next := by
    rw [hwaits]
    rfl
  have hsettled : Net.Settled (clientAct memory) (serverAct memory shell)
      ⟨.abort, receiveFile memory server fileName, [], []⟩ := by
    constructor
    · exact not_transfer_of_recv (.inl rfl)
    · exact not_transfer_of_recv (.inr ⟨_, _, hact⟩)
  have hanswers := Session.last_answers hsettled rfl (fun next h => by cases h)
  have hstart : (Session.last _).OnTrack (clientAct memory) (serverAct memory shell)
      (Process.Steady ZeroFree) (Process.Steady ZeroFree) ()
      { c with left := client.command memory (.put name) } weight' :=
    ⟨steady_command memory client (.put name), htrack.right, _, last, rfl, hleads, nofun⟩
  intro history c' hrun hok _ client'' hresult'' hrunning'' _
  obtain ⟨weight'', htrack'⟩ := Session.onTrack_of_run hanswers (steady_client memory)
    (steady_server memory shell) server_never_inputs hstart hrun hok (Session.last_admits _ _)
  obtain ⟨e, last', rfl, hlock, -⟩ := htrack'.way
  obtain ⟨hleft, -⟩ := hlock.with_left (client_input hresult'' hrunning'')
  rw [← hleft] at hresult''
  cases hresult''

/-- If the client gives up, it is back at its prompt while the thread waits for the file. -/
theorem not_uploadIntact {weight : ℕ} (htrack : FtpOnTrack memory shell view c weight)
    (hresult : c.left.result = some client) (hrunning : client.ended = false)
    (hname : View.GoodName name) (hinfo : client.info ≠ none)
    (hfound : client.files.pathExists name = some true) {line : String}
    (hsend : sendFile client name = pure (client.print line)) :
    ¬UploadIntact memory shell view { c with left := client.command memory (.put name) } := by
  obtain ⟨hphase, server, fileName, last, weight', hleads⟩ :=
    leads_to_wait htrack hresult hrunning hname hinfo hfound
  rw [hsend, Process.pure_eq, Process.done_bind] at hleads
  obtain ⟨client', hresult', -, hended', -⟩ := result_createSocket (client.print line)
  obtain ⟨next, hwaits⟩ := receiveFile_waits memory server fileName
  obtain ⟨history, hrun, hfull, htyped⟩ := hleads.exists_run (.start rfl)
  intro h
  have hrest := h _ _ hrun (fun entry hmem => (hfull entry hmem).undisturbed) (by
      rw [List.nil_append, htyped]
      trivial) client' hresult' (hended'.trans hrunning)
    (.inr (serverIdle_of_waits hwaits rfl hresult' (hended'.trans hrunning)))
  rw [List.nil_append, htyped] at hrest
  obtain ⟨server', -, -, hright⟩ := hrest.server
  have hview : (ftpSession memory shell).performAll view [] = view := rfl
  rw [hview, hphase] at hright
  have hready : receiveFile memory server fileName = .done (.next server') := hright
  rw [hwaits] at hready
  cases hready

/-- In every state of a session, a `put` of a file that exists and cannot be opened or read leaves the
    session intact if and only if there is no connection or the size of the file cannot be had. -/
theorem upload_failure_iff {weight : ℕ} (htrack : FtpOnTrack memory shell view c weight)
    (hresult : c.left.result = some client) (hrunning : client.ended = false)
    (hname : View.GoodName name) (hfile : client.files.Unreadable name) :
    UploadIntact memory shell view { c with left := client.command memory (.put name) } ↔
      client.info = none ∨ client.files.fileSize name = none := by
  by_cases hinfo : client.info = none
  · exact iff_of_true (uploadIntact_offline htrack hresult hrunning hname hinfo) (.inl hinfo)
  · rcases sendFile_of_unreadable hfile with ⟨hsize, habort⟩ | ⟨hsize, line, hsend⟩
    · refine iff_of_true ?_ (.inr hsize)
      exact uploadIntact_of_abort htrack hresult hrunning hname hinfo hfile.found habort
    · refine iff_of_false ?_ ?_
      · exact not_uploadIntact htrack hresult hrunning hname hinfo hfile.found hsend
      · rintro (h | h)
        · exact hinfo h
        · exact hsize h

end

/-! ### A session -/

/-- A file that exists and that the client may not read. -/
def lockedFiles : FileSystem :=
  { sampleFiles [0x61] [0x41] with allows := fun call _ => call != .openRead }

theorem lockedFiles_unreadable : lockedFiles.Unreadable [0x61] :=
  ⟨rfl, .inl rfl⟩

/-- A session that is not intact after the upload of such a file. -/
theorem upload_failure_iff_locked :
    ¬UploadIntact sampleMemory sampleShell
      ⟨.connected, false, lockedFiles, sampleFiles [] [], [slash], false⟩
      (requestNet sampleMemory (connectedClient lockedFiles) (sampleServer (sampleFiles [] []))
        (.put [0x61])) := by
  have hrest : AtRest sampleMemory ⟨.connected, false, lockedFiles, sampleFiles [] [], [slash], false⟩
      ⟨.done (connectedClient lockedFiles), .done (.next (sampleServer (sampleFiles [] []))), [], []⟩ :=
    ⟨⟨connectedClient lockedFiles, rfl, rfl, rfl, by simp [connectedClient], by simp [connectedClient]⟩,
      ⟨sampleServer (sampleFiles [] []), rfl, rfl, rfl⟩, rfl, rfl⟩
  have htrack : FtpOnTrack sampleMemory sampleShell
      ⟨.connected, false, lockedFiles, sampleFiles [] [], [slash], false⟩
      ⟨.done (connectedClient lockedFiles), .done (.next (sampleServer (sampleFiles [] []))), [], []⟩ 0 :=
    ⟨.done _, .done _, _, none, hrest, .refl _, by simp⟩
  have hresult : (Process.done (connectedClient lockedFiles)).result =
      some (connectedClient lockedFiles) := rfl
  have hiff := upload_failure_iff htrack hresult rfl ⟨by simp, by simp, by decide⟩
    lockedFiles_unreadable
  intro h
  rcases hiff.mp h with hinfo | hsize
  · cases hinfo
  · cases hsize

/-- The client sends `cd` and waits for the reply, whatever the thread is doing. -/
theorem command_cd_sent (memory : Memory) (shell : Shell) {client : Client} {name : Path}
    (hname : View.GoodName name) (hinfo : client.info ≠ none) (q : Process Served) :
    ∃ next, Leads memory shell ⟨client.command memory (.cd name), q, [], []⟩
      ⟨.recv packetSize next, q, requestBytes cdRequest.type name, []⟩ none := by
  have hsmall : ¬packetSize + name.length > maxBufferSize := by
    have h := hname.fits
    rw [packetSize, maxBufferSize]
    omega
  suffices h : ∃ f, Leads memory shell ⟨client.command memory (.cd name), q, [], []⟩
      ⟨safeRecv (memory.buffer client.turn "cd_reply") packetSize >>= f, q,
        requestBytes cdRequest.type name, []⟩ none by
    obtain ⟨f, hleads⟩ := h
    obtain ⟨next, hnext⟩ := safeRecv_bind_eq (by decide)
      (by simp [packetSize, maxBufferSize] :
        packetSize ≤ (memory.buffer client.turn "cd_reply").length) f
    exact ⟨next, hnext ▸ hleads⟩
  simp only [Client.command, runCommand, if_neg hname.nonempty, changeDirectory, checkConnection,
    if_neg hinfo, checkServerStatus, Process.check_bind, Process.bind_assoc]
  apply Exists.intro
  refine .client_request hname.fits (memory.length_buffer client.turn "cd_request") (by
    simp only [if_true, Process.pure_eq, Process.done_bind, Process.bind_assoc, Bool.not_true,
      Bool.false_eq_true, if_false, if_neg hsmall]
    rfl) ?_
  simp only [List.nil_append, ne_eq, not_true_eq_false, if_false, Process.bind_assoc]
  exact .refl _

/-- The thread takes the request that follows such an upload, a `cd`, for the file: it overwrites the
    remote file of that name, and the client waits for a reply that never comes. -/
theorem failed_upload_overwrites :
    ∃ history c server, (ftpSystem sampleMemory sampleShell (startNet sampleMemory
        (sampleClient lockedFiles) (sampleServer (sampleFiles [0x2f, 0x61] [0x43])))).Run history c ∧
      (∀ entry ∈ history, FullRead sampleMemory sampleShell entry.1 entry.2) ∧
      Net.typed history = [.open sampleIp samplePort, .put [0x61], .cd [0x62]] ∧
      c.right = .done (.next server) ∧ c.toRight = [] ∧ c.toLeft = [] ∧ c.left.result = none ∧
      server.files.lookup [0x2f, 0x61] = .regular [0x62, 0] := by
  obtain ⟨history, c, client, server, hrun, hfull, htyped, hc, hresult, hinfo, hrunning, hfiles, hthere,
    hdir⟩ := exists_run_open lockedFiles (sampleFiles [0x2f, 0x61] [0x43])
  have hfound : client.files.pathExists [0x61] = some true := hfiles ▸ rfl
  have hput := @command_put_request sampleMemory sampleShell client server [0x61] (by simp) (by simp)
    hinfo hfound
  obtain ⟨line, hsend⟩ : ∃ line, sendFile client [0x61] = pure (client.print line) := by
    rcases sendFile_of_unreadable (hfiles ▸ lockedFiles_unreadable) with ⟨hsize, -⟩ | ⟨-, hsend⟩
    · rw [hfiles] at hsize
      cases hsize
    · exact hsend
  rw [hsend, Process.pure_eq, Process.done_bind] at hput
  have hnet : { c with left := client.command sampleMemory (.put [0x61]) } =
      (⟨client.command sampleMemory (.put [0x61]), .done (.next server), [], []⟩ : FtpNet) := by
    rw [hc]
  obtain ⟨history', hrun', htyped', hfull'⟩ :=
    exists_run_typed hrun hresult hrunning (hnet ▸ hput)
  obtain ⟨client', hresult', hinfo', hended', -, -⟩ := result_createSocket (client.print line)
  have hconnected : client'.info ≠ none := by
    rw [hinfo']
    exact hinfo
  obtain ⟨next, hcd⟩ := command_cd_sent sampleMemory sampleShell
    (⟨by simp, by simp, by decide⟩ : View.GoodName [0x62]) hconnected
    (receiveFile sampleMemory server.turned ([0x61] ++ [0] ++
      (sampleMemory.buffer server.turned.turn "file_name").drop 2))
  -- header, name and zero byte of the request are taken for a file of two bytes
  have hpath : server.turned.filePath (cutName [0x61]) = [0x2f, 0x61] := by
    rw [Server.filePath, Server.turned, hdir]
    rfl
  have hwritable : server.turned.files.Writable (server.turned.filePath (cutName [0x61])) [0x62, 0] := by
    rw [hpath, Server.turned, hthere]
    exact ⟨.inr ⟨[0x43], rfl⟩, rfl, rfl, by decide⟩
  obtain ⟨last, hreceive⟩ := receive_file sampleMemory sampleShell (.recv packetSize next) cdRequest.type [] []
    ((sampleMemory.buffer server.turned.turn "file_name").drop 2) (by simp) hwritable
  obtain ⟨history'', hrun'', htyped'', hfull''⟩ :=
    exists_run_typed hrun' hresult' (hended'.trans hrunning) (hcd.trans hreceive)
  rw [htyped', htyped] at htyped''
  refine ⟨history'', _, _, hrun'', hfull'' (hfull' hfull), htyped'', rfl, rfl, rfl, rfl, ?_⟩
  rw [hpath]
  exact FileSystem.lookup_store _ _ _

end NetworkLabs.Ftp
