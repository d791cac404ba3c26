/-
Module: NetworkLabs.FtpProofs.Frame
Layer: FtpProofs
Purpose: What the two programs never touch. Whatever the peer sends and however the calls end, a serving
  thread writes only the files that the PUTs it reads name, and the client only those that its user gets;
  neither takes anything away, nor makes a file of a directory or of a device. So the current directory of
  a thread is a directory at all times.
Trusted boundary: none
Main exports: FileSystem.Kept, Server.Goes, goes_serveRequest, thread_frame, client_frame
-/
import NetworkLabs.FtpProofs.Asking
import NetworkLabs.FtpProofs.Connection
import NetworkLabs.Lib.Speech

namespace NetworkLabs.Ftp

open Lib

/-- The file system after files were written at some places: there was a file at such a place before, or
    nothing, and there is a file now. -/
structure FileSystem.Kept (named : Path → Prop) (files files' : FileSystem) : Prop where
  workingDir : files'.workingDir = files.workingDir
  place : files'.place = files.place
  allows : files'.allows = files.allows
  room : files'.room = files.room
  node : ∀ p, files'.node p = files.node p ∨ named p ∧ files.node p ≠ .directory ∧
    files.node p ≠ .special ∧ ∃ content, files'.node p = .regular content

/-- What a turn of the request loop can do to the thread, by what it is asked for. -/
inductive Server.Goes (server : Server) (asks : Asked → Prop) : Server → Prop where
  | stays {server' : Server} (hfiles : server'.files = server.files)
      (hdir : server'.currentDir = server.currentDir) : Goes server asks server'
  | moves {server' : Server} (dir : Path) (hasks : asks (.cd dir))
      (hfiles : server'.files = server.files) (hdir : server'.currentDir = server.dirPath dir)
      (hdirectory : server.files.lookup (server.dirPath dir) = .directory) : Goes server asks server'
  | stores {server' : Server} (name : Path) (hasks : asks (.put name))
      (hkept : server.files.Kept (· = server.files.place (server.filePath name)) server'.files)
      (hdir : server'.currentDir = server.currentDir) : Goes server asks server'

/-- The place that the PUT of a turn names, if it is one. -/
def PutNames (memory : Memory) (entry : Thread × List Outcome) (p : Path) : Prop :=
  ∃ server name rest, entry.1 = .serving (.next server) ∧ server.Asks memory entry.2 (.put name) rest ∧
    p = server.files.place (server.filePath name)

namespace FileSystem

variable {named named' : Path → Prop} {files files' files'' : FileSystem} {path : Path}

theorem Kept.refl (files : FileSystem) : files.Kept named files :=
  ⟨rfl, rfl, rfl, rfl, fun _ => .inl rfl⟩

theorem Kept.mono (h : files.Kept named files') (himp : ∀ p, named p → named' p) :
    files.Kept named' files' := by
  refine ⟨h.workingDir, h.place, h.allows, h.room, fun p => ?_⟩
  rcases h.node p with hsame | ⟨hnamed, hrest⟩
  · exact .inl hsame
  · exact .inr ⟨himp p hnamed, hrest⟩

theorem Kept.trans (h : files.Kept named files') (h' : files'.Kept named files'') :
    files.Kept named files'' := by
  refine ⟨h'.workingDir.trans h.workingDir, h'.place.trans h.place, h'.allows.trans h.allows,
    h'.room.trans h.room, fun p => ?_⟩
  rcases h.node p with hsame | ⟨hnamed, hdirectory, hspecial, hcontent⟩
  · rw [← hsame]
    exact h'.node p
  · rcases h'.node p with hsame' | ⟨-, -, -, hcontent'⟩
    · exact .inr ⟨hnamed, hdirectory, hspecial, hsame' ▸ hcontent⟩
    · exact .inr ⟨hnamed, hdirectory, hspecial, hcontent'⟩

theorem kept_store (hdirectory : files.lookup path ≠ .directory) (hspecial : files.lookup path ≠ .special)
    (content : List Byte) : files.Kept (· = files.place path) (files.store path content) := by
  refine ⟨rfl, rfl, rfl, rfl, fun p => ?_⟩
  by_cases hp : p = files.place path
  · exact .inr ⟨hp, hp ▸ hdirectory, hp ▸ hspecial, content, if_pos hp⟩
  · exact .inl (if_neg hp)

/-- Opening a stream for writing and writing to it. -/
theorem kept_create_write (h : files.create path = some files') (content : List Byte) :
    files.Kept (· = files.place path) (files'.write path content).1 := by
  unfold create at h
  split at h
  · split at h
    · cases h
    · next hspecial =>
        obtain rfl : files = files' := Option.some.inj h
        simp only [write, hspecial]
        exact .refl files
    · next hdirectory hspecial =>
        obtain rfl : files.store path [] = files' := Option.some.inj h
        have hlookup : (files.store path []).lookup path = .regular [] := if_pos rfl
        have hagain : ∀ content, (files.store path []).Kept (· = files.place path)
            ((files.store path []).store path content) := by
          apply @kept_store (files.store path []) path
          · simp [hlookup]
          · simp [hlookup]
        simp only [write, hlookup]
        exact (kept_store hdirectory hspecial []).trans (hagain _)
  · cases h

theorem lookup_of_isDirectory (h : files.isDirectory path = some true) :
    files.lookup path = .directory := by
  unfold isDirectory status at h
  split at h
  · simpa using h
  · cases h

/-- A directory stays one. -/
theorem Kept.lookup_directory (h : files.Kept named files') (hlookup : files.lookup path = .directory) :
    files'.lookup path = .directory := by
  unfold lookup at hlookup ⊢
  rw [h.place]
  rcases h.node (files.place path) with hsame | ⟨-, hne, -⟩
  · rw [hsame, hlookup]
  · exact absurd hlookup hne

end FileSystem

section

variable {memory : Memory} {shell : Shell} {server server' : Server} {request : DataPacket}
  {asks asks' : Asked → Prop} {outcomes : List Outcome} {served : Served}

/-! ### One turn of a thread -/

/-- What only counts the turns. -/
theorem Server.Goes.turned {turn : ℕ} (h : { server with turn := turn }.Goes asks server') :
    server.Goes asks server' := by
  cases h with
  | stays hfiles hdir => exact .stays hfiles hdir
  | moves dir hasks hfiles hdir hdirectory => exact .moves dir hasks hfiles hdir hdirectory
  | stores name hasks hkept hdir => exact .stores name hasks hkept hdir

theorem Server.Goes.mono (h : server.Goes asks server') (himp : ∀ asked, asks asked → asks' asked) :
    server.Goes asks' server' := by
  cases h with
  | stays hfiles hdir => exact .stays hfiles hdir
  | moves dir hasks hfiles hdir hdirectory => exact .moves dir (himp _ hasks) hfiles hdir hdirectory
  | stores name hasks hkept hdir => exact .stores name (himp _ hasks) hkept hdir

/-- A thread that is where it was. -/
theorem goes_self : server.Goes asks server := .stays rfl rfl

theorem goes_serveList : (serveList memory shell server).Ensures fun _ served =>
    server.Goes asks served.server := by
  rw [serveList]
  split
  · exact .done goes_self
  · refine .bind_result ?_
    rintro ⟨length, listContent⟩
    refine .bind_result fun sent => .early goes_self ?_
    exact .bind_result fun sent => .early goes_self (.done goes_self)

theorem goes_cdNamed {array : List Byte} (hasks : asks (.cd (cutName array))) :
    (cdNamed server array).Ensures fun _ served => server.Goes asks served.server := by
  intro outcomes served hends
  refine (?_ : Process.Ensures _ fun _ served => server.Goes asks served.server) _ _ (ends_cString hends)
  split
  · exact .abort
  · exact .bind_result fun sent => .early goes_self (.done goes_self)
  · next hmissing =>
      refine .bind_result fun sent => .early goes_self (.done ?_)
      refine .moves _ hasks rfl rfl (FileSystem.lookup_of_isDirectory ?_)
      unfold missing at hmissing
      split at hmissing
      · cases hmissing
      · cases hmissing
      · simpa using hmissing

theorem goes_fileNamed {replyType : Byte} {found : Path → Process Served} {array : List Byte}
    (hfound : ∀ path, (found path).Ensures fun _ served => server.Goes asks served.server) :
    (fileNamed server replyType found array).Ensures fun _ served =>
      server.Goes asks served.server := by
  refine .bind_result fun fileName => ?_
  split
  · exact .abort
  · exact .bind_result fun sent => .early goes_self (.done goes_self)
  · exact .bind_result fun sent => .early goes_self (hfound _)

theorem goes_sendContent (path : Path) :
    (sendContent server path).Ensures fun _ served => server.Goes asks served.server := by
  rw [sendContent]
  refine .early goes_self ?_
  split
  · exact .abort
  · split
    · exact .done goes_self
    · refine .bind_result fun sent => .early goes_self ?_
      exact .bind_result fun sent => .early goes_self (.done goes_self)

theorem goes_sendSum (path : Path) :
    (sendSum memory shell server path).Ensures fun _ served => server.Goes asks served.server := by
  rw [sendSum]
  split
  · exact .done goes_self
  · refine .bind_result ?_
    rintro ⟨shaSize, shaContent⟩
    refine .bind_result fun sent => .early goes_self ?_
    exact .bind_result fun sent => .early goes_self (.done goes_self)

theorem goes_writeContent {name : Path} (hasks : asks (.put name)) (content : List Byte) :
    (writeContent server (server.filePath name) content).Ensures fun _ served =>
      server.Goes asks served.server := by
  rw [writeContent]
  split
  · exact .abort
  · split
    · exact .done goes_self
    · next hcreate =>
        have hstores := FileSystem.kept_create_write hcreate content
        exact .early (.stores name hasks hstores rfl) (.done (.stores name hasks hstores rfl))

theorem goes_putNamed {array : List Byte} (hasks : asks (.put (cutName array))) :
    (putNamed memory server array).Ensures fun _ served => server.Goes asks served.server := by
  refine .bind_result fun sent => .early goes_self ?_
  rw [receiveFile]
  refine .bind_result ?_
  rintro ⟨received, head⟩
  refine .early goes_self (.bind_result ?_)
  rintro ⟨received, content⟩
  refine .early goes_self fun outcomes served hends => ?_
  exact goes_writeContent hasks content _ _ (ends_cString hends)

/-- A branch that reads a name, by what it does once it has one. -/
theorem goes_named {label : String} {terminated : Bool} {next : List Byte → Process Served}
    (h : (named server (memory.buffer server.turn label) (request.lengthMinus 12) terminated next).Ends
      outcomes served)
    (hnext : ∀ array rest,
      StoresName memory server.turn label terminated request outcomes (cutName array) rest →
        (next array).Ensures fun _ served => server.Goes asks served.server) :
    server.Goes asks served.server := by
  obtain rfl | ⟨first, value, array, rest, rfl, hread, hends⟩ := ends_named h
  · exact goes_self
  · exact hnext array rest ⟨first, value, array, rfl, hread, rfl⟩ _ _ hends

theorem goes_serveType (h : (serveType memory shell server request).Ends outcomes served) :
    server.Goes (fun asked => ∃ rest, Understood memory server.turn request outcomes asked rest)
      served.server := by
  rw [serveType] at h
  split at h
  · cases h
    exact goes_self
  · next hprotocol =>
      have hprotocol : request.protocol = protocol := not_not.mp hprotocol
      split at h
      · exact goes_serveList _ _ h
      split at h
      · next htype =>
          rw [serveCd_eq] at h
          exact goes_named h fun array rest hname => goes_cdNamed ⟨rest, .cd ⟨hprotocol, htype⟩ hname⟩
      split at h
      · rw [serveGet_eq] at h
        exact goes_named h fun array rest _ => goes_fileNamed goes_sendContent
      split at h
      · next htype =>
          rw [servePut_eq] at h
          exact goes_named h fun array rest hname => goes_putNamed ⟨rest, .put ⟨hprotocol, htype⟩ hname⟩
      split at h
      · rw [serveSha_eq] at h
        exact goes_named h fun array rest _ => goes_fileNamed goes_sendSum
      · have hquit : (if request.type = quitRequest.type then serveQuit server
            else pure (.ended server)).Ensures fun _ served => server.Goes
              (fun asked => ∃ rest, Understood memory server.turn request outcomes asked rest)
              served.server :=
          .ite (.bind_result fun _ => .done goes_self) (.done goes_self)
        exact hquit _ _ h

theorem goes_serveRequest (h : (serveRequest memory shell server).Ends outcomes served) :
    server.Goes (fun asked => ∃ rest, server.Asks memory outcomes asked rest) served.server := by
  rw [serveRequest] at h
  obtain ⟨first, more, ⟨value, buffer⟩, rfl, hread, hserve⟩ := Process.ends_bind h
  refine (goes_serveType hserve).turned.mono ?_
  rintro asked ⟨rest, hunderstood⟩
  exact ⟨rest, first, more, value, buffer, rfl, hread, hunderstood⟩

theorem ensures_acceptClient : (acceptClient memory server).Ensures fun _ served =>
    served.server.files = server.files ∧ served.server.currentDir = server.currentDir := by
  rw [acceptClient]
  refine .bind_result ?_
  rintro ⟨received, buffer⟩
  refine .early ⟨rfl, rfl⟩ (.early ⟨rfl, rfl⟩ ?_)
  exact .bind_result fun sent => .early ⟨rfl, rfl⟩ (.done ⟨rfl, rfl⟩)

/-- A turn of the loop keeps the current directory a directory. -/
theorem Server.Goes.directory (h : server.Goes asks server')
    (hdirectory : server.files.lookup server.currentDir = .directory) :
    server'.files.lookup server'.currentDir = .directory := by
  cases h with
  | stays hfiles hdir => rwa [hfiles, hdir]
  | moves dir _ hfiles hdir hmoved => rwa [hfiles, hdir]
  | stores name _ hkept hdir =>
      rw [hdir]
      exact hkept.lookup_directory hdirectory

/-- What a turn of the loop does to the files. -/
theorem Server.Goes.kept (h : server.Goes asks server') :
    server.files.Kept (fun p => ∃ name, asks (.put name) ∧ p = server.files.place (server.filePath name))
      server'.files := by
  cases h with
  | stays hfiles => exact hfiles ▸ .refl _
  | moves _ _ hfiles => exact hfiles ▸ .refl _
  | stores name hasks hkept => exact hkept.mono fun p hp => ⟨name, hasks, hp⟩

end

/-! ### One command of the client -/

section

variable {memory : Memory} {client : Client}

/-- The test of the connection in front of a command that leaves the files as they are. -/
theorem files_connected {f : Bool × Client → Process Client} {P : Client → Prop}
    (hf : ∀ up client', client'.files = client.files → (f (up, client')).Ensures fun _ => P) :
    (checkConnection client >>= f).Ensures fun _ => P := by
  apply ensures_connected
  · exact fun _ => hf false client rfl
  · exact fun _ => hf false client.serverDown rfl
  · exact fun _ => hf true client rfl

theorem files_listFiles :
    (listFiles memory client).Ensures fun _ client' => client'.files = client.files := by
  rw [listFiles]
  apply files_connected
  intro up client' hfiles
  refine .early hfiles ?_
  refine .bind_result fun sent => .early hfiles (.bind_result ?_)
  rintro ⟨received, reply⟩
  exact .early hfiles (.ite (.done hfiles) .abort)

theorem files_changeDirectory (dir : Path) :
    (changeDirectory memory client dir).Ensures fun _ client' => client'.files = client.files := by
  rw [changeDirectory]
  apply files_connected
  intro up client' hfiles
  refine .early hfiles (.early hfiles ?_)
  refine .bind_result fun array => .bind_result fun sent => .early hfiles (.bind_result ?_)
  rintro ⟨received, reply⟩
  exact .early hfiles (.early hfiles (.early hfiles (.early hfiles (.done hfiles))))

theorem files_uploadFiles (fileName : Path) :
    (uploadFiles memory client fileName).Ensures fun _ client' => client'.files = client.files := by
  rw [uploadFiles]
  apply files_connected
  intro up client' hfiles
  refine .early hfiles ?_
  split
  · exact .abort
  · exact .done hfiles
  · refine .bind_result fun array => .bind_result fun sent => .early hfiles (.bind_result ?_)
    rintro ⟨received, reply⟩
    refine .early hfiles (.early hfiles ?_)
    rw [sendFile]
    split
    · exact .abort
    · refine .early hfiles ?_
      split
      · exact .done hfiles
      · refine .bind_result fun sent => .early hfiles ?_
        exact .bind_result fun sent => .early hfiles (.done hfiles)

theorem files_sha256 (fileName : Path) :
    (sha256 memory client fileName).Ensures fun _ client' => client'.files = client.files := by
  rw [sha256]
  apply files_connected
  intro up client' hfiles
  refine .early hfiles ?_
  refine .bind_result fun array => .bind_result fun sent => .early hfiles (.bind_result ?_)
  rintro ⟨received, reply⟩
  refine .early hfiles (.early hfiles (.bind_result ?_))
  rintro ⟨received, head⟩
  refine .early hfiles (.bind_result ?_)
  rintro ⟨received, value⟩
  exact .early hfiles (.done hfiles)

theorem files_openCommand (serverIp serverPort : List Byte) :
    (openCommand memory client serverIp serverPort).Ensures fun _ client' =>
      client'.files = client.files := by
  rw [openCommand]
  refine .early rfl ?_
  split
  · exact .abort
  refine .bind_result fun connected => .early rfl ?_
  refine .bind (P := fun _ result => result.2.files = client.files) ?_ ?_
  · rw [openConnection]
    refine .bind_result fun sent => .early rfl (.bind_result ?_)
    rintro ⟨flag, reply⟩
    exact .early rfl (.early rfl (.done rfl))
  · rintro outcomes ⟨result, client'⟩ hfiles
    exact .ite (.done hfiles) (.done hfiles)

theorem files_quitCommand :
    (quitCommand memory client).Ensures fun _ client' => client'.files = client.files := by
  rw [quitCommand]
  refine .early rfl ?_
  refine .bind (P := fun _ result => result.2.files = client.files) ?_ ?_
  · rw [closeConnection]
    refine (ensures_checkServerStatus client).bind ?_
    rintro outcomes ⟨up, client'⟩ hstatus
    have hfiles : client'.files = client.files := by
      rcases hstatus with ⟨-, h⟩ | ⟨-, h⟩
      · rw [(Prod.mk.inj h).2]
      · rw [(Prod.mk.inj h).2]
        rfl
    refine .early hfiles (.bind_result fun sent => .early hfiles (.bind_result ?_))
    rintro ⟨received, reply⟩
    exact .early hfiles (.early hfiles (.done hfiles))
  · rintro outcomes ⟨result, client'⟩ hfiles
    exact .ite (.done hfiles) (.done hfiles)

theorem files_createSocket :
    (createSocket client).Ensures fun _ client' => client'.files = client.files := by
  rw [createSocket]
  exact .ite (.check fun created => .ite (.done rfl) (.done rfl)) (.done rfl)

theorem kept_saveFile (fileName : Path) (fileContent : List Byte) :
    (saveFile client fileName fileContent).Ensures fun _ client' =>
      client.files.Kept (· = client.files.place fileName) client'.files := by
  rw [saveFile]
  split
  · exact .abort
  · next found _ =>
      have hsame : ∀ c : Client, c = (if found then (client.print "Downloading file").printNamed
          "File already exists, Will Cover" fileName else client.print "Downloading file") →
          c.files = client.files := by
        rintro c rfl
        cases found <;> rfl
      dsimp only
      split
      · have hstays : ∀ files, files = client.files →
            client.files.Kept (· = client.files.place fileName) files := by
          rintro _ rfl
          exact .refl _
        have hfiles := hsame _ rfl
        exact .done (hstays _ hfiles)
      · next files hcreate =>
          have hcreate : client.files.create fileName = some files := by rwa [hsame _ rfl] at hcreate
          have hkept := FileSystem.kept_create_write hcreate fileContent
          exact .early hkept (.done hkept)

/-- `get` writes the file that it names. -/
theorem kept_downloadFiles (fileName : Path) :
    (downloadFiles memory client fileName).Ensures fun _ client' =>
      client.files.Kept (· = client.files.place fileName) client'.files := by
  rw [downloadFiles]
  apply files_connected
  intro up client' hfiles
  have hstays : client.files.Kept (· = client.files.place fileName) client'.files := hfiles ▸ .refl _
  refine .early hstays ?_
  refine .bind_result fun array => .bind_result fun sent => .early hstays (.bind_result ?_)
  rintro ⟨received, reply⟩
  refine .early hstays (.early hstays (.bind_result ?_))
  rintro ⟨received, head⟩
  refine .early hstays (.bind_result ?_)
  rintro ⟨received, content⟩
  refine .early hstays ?_
  rw [← hfiles]
  exact kept_saveFile _ _

/-- Every command of the client, up to the next prompt. -/
theorem kept_command (command : Command) :
    (client.command memory command).Ensures fun _ client' =>
      client.files.Kept (fun p => ∃ name, command = .get name ∧ p = client.files.place name)
        client'.files := by
  have hsame : ∀ client' : Client, client'.files = client.files → client.files.Kept
      (fun p => ∃ name, command = .get name ∧ p = client.files.place name) client'.files :=
    fun client' hfiles => hfiles ▸ .refl _
  have hrun : (runCommand memory client command).Ensures fun _ client' => client.files.Kept
      (fun p => ∃ name, command = .get name ∧ p = client.files.place name) client'.files := by
    cases command with
    | «open» serverIp serverPort =>
        exact (files_openCommand serverIp serverPort).mono fun _ client' => hsame client'
    | ls => exact files_listFiles.mono fun _ client' => hsame client'
    | cd name =>
        exact .early (hsame _ rfl) ((files_changeDirectory name).mono fun _ client' => hsame client')
    | get name =>
        refine .early (hsame _ rfl) ((kept_downloadFiles name).mono fun _ client' hkept => ?_)
        exact hkept.mono fun p hp => ⟨name, rfl, hp⟩
    | put name => exact .early (hsame _ rfl) ((files_uploadFiles name).mono fun _ client' => hsame client')
    | sha256 name => exact .early (hsame _ rfl) ((files_sha256 name).mono fun _ client' => hsame client')
    | quit => exact files_quitCommand.mono fun _ client' => hsame client'
    | invalid => exact .done (hsame _ rfl)
  rw [Client.command]
  refine hrun.bind fun outcomes client₁ hkept => ?_
  exact files_createSocket.mono fun _ client₂ hfiles => hfiles ▸ hkept

end

/-! ### Whole runs -/

/-- In every run of a serving thread, whatever its peer sends: the files are as they were but for those that
    a PUT of the run names, relative to what was the current directory in that turn, and these are files and
    were files or nothing before; and the current directory is a directory as long as it was one at the
    start. -/
theorem thread_frame {memory : Memory} {shell : Shell} {start : Server}
    {history : List (Thread × List Outcome)} {thread : Thread}
    (hrun : (threadSystem memory shell start).Run history thread) :
    start.files.Kept (fun p => ∃ entry ∈ history, PutNames memory entry p) thread.server.files ∧
      (start.files.lookup start.currentDir = .directory →
        thread.server.files.lookup thread.server.currentDir = .directory) := by
  induction hrun with
  | start hinit =>
      obtain rfl : _ = _ := hinit
      exact ⟨.refl _, id⟩
  | @step history thread thread' outcomes hprev hstep ih =>
      obtain ⟨hkept, hdirectory⟩ := ih
      have hbefore := hkept.mono fun p ⟨entry, hmem, hnames⟩ =>
        (⟨entry, List.mem_append_left _ hmem, hnames⟩ :
          ∃ entry ∈ history ++ [(thread, outcomes)], PutNames memory entry p)
      obtain ⟨program, served, hprogram, hends, rfl⟩ := hstep
      cases thread with
      | accepting server =>
          obtain rfl := Option.some.inj hprogram
          obtain ⟨hfiles, hdir⟩ := ensures_acceptClient _ _ hends
          simp only [Thread.server] at hbefore hdirectory ⊢
          rw [hfiles, hdir]
          exact ⟨hbefore, hdirectory⟩
      | serving before =>
          cases before with
          | ended server => cases hprogram
          | next server =>
              obtain rfl := Option.some.inj hprogram
              have hgoes := goes_serveRequest hends
              refine ⟨hbefore.trans (hgoes.kept.mono ?_), fun h => hgoes.directory (hdirectory h)⟩
              rintro p ⟨name, ⟨rest, hasks⟩, hp⟩
              exact ⟨_, List.mem_append_right _ (List.mem_singleton.mpr rfl), server, name, rest, rfl,
                hasks, hp⟩

/-- A connection is asked for, and the reply is sent at once. -/
def sampleAccept : List Outcome := [.received (.data openConnRequest.bytes), .sent (.accepted packetSize)]

theorem ends_sampleAccept (memory : Memory) (server : Server) :
    (acceptClient memory server).Ends sampleAccept (.next server.turned) := by
  obtain ⟨n, hread⟩ := @ends_safeRecv (memory.buffer server.turn "buffer") (packet 0xA1 0 12).bytes
    (packet_bytes_ne_nil _ _ _) (by simp [Memory.buffer, memory.length_array, packetSize, maxBufferSize])
  have hsend := ends_safeSend (packet_bytes_ne_nil 0xA2 1 12)
  rw [length_packet_bytes] at hread hsend
  change Process.Ends _ ([.received _] ++ ([.sent _] ++ [])) _
  refine hread.bind ?_
  simp only [reduceCtorEq, if_false, ofBytes_packet]
  rw [if_neg (by simp [openConnRequest])]
  exact hsend.bind (.done _)

/-- A thread that has accepted its client. -/
theorem run_sampleAccept (memory : Memory) (shell : Shell) (start : Server) :
    (threadSystem memory shell start).Run [(.accepting start, sampleAccept)]
      (.serving (.next start.turned)) := by
  have hstart : (threadSystem memory shell start).Run [] (.accepting start) := .start rfl
  exact hstart.step ⟨_, _, rfl, ends_sampleAccept memory start, rfl⟩

/-- A file system with a directory `/` and nothing in it. -/
def sampleRoot : FileSystem :=
  { sampleFiles [] [] with node := fun p => if p = [slash] then .directory else .absent }

/-- A PUT of a file `a` that holds one byte. -/
def samplePut : List Outcome :=
  [.received (.data (packet putRequest.type 0 14).bytes), .received (.data [0x61, 0]),
    .sent (.accepted packetSize), .received (.data (packet fileData.type 0 13).bytes),
    .received (.data [0x41])]

/-- A thread that has stored a file. -/
theorem run_samplePut : ∃ thread,
    (threadSystem sampleMemory sampleShell (sampleServer sampleRoot)).Run
      [(.accepting (sampleServer sampleRoot), sampleAccept),
        (.serving (.next (sampleServer sampleRoot).turned), samplePut)] thread ∧
      thread.server.files.lookup [0x2f, 0x61] = .regular [0x41] := by
  have hexec : ((serveRequest sampleMemory sampleShell (sampleServer sampleRoot).turned).exec
      samplePut).map (fun served => served.server.files.lookup [0x2f, 0x61]) = some (.regular [0x41]) := by
    decide +kernel
  obtain ⟨served, hserved, hlookup⟩ := Option.map_eq_some_iff.mp hexec
  have hrun := run_sampleAccept sampleMemory sampleShell (sampleServer sampleRoot)
  exact ⟨_, hrun.step ⟨_, served, rfl, Process.ends_of_exec hserved, rfl⟩, hlookup⟩

/-- A thread that stores a file in its directory, and nothing else. -/
theorem thread_frame_put : ∃ thread,
    (threadSystem sampleMemory sampleShell (sampleServer sampleRoot)).Run
      [(.accepting (sampleServer sampleRoot), sampleAccept),
        (.serving (.next (sampleServer sampleRoot).turned), samplePut)] thread ∧
      thread.server.files.lookup [0x2f, 0x61] = .regular [0x41] ∧
      (sampleRoot.Kept (fun p => ∃ entry ∈
          [(Thread.accepting (sampleServer sampleRoot), sampleAccept),
            (.serving (.next (sampleServer sampleRoot).turned), samplePut)],
          PutNames sampleMemory entry p) thread.server.files ∧
        (sampleRoot.lookup [slash] = .directory →
          thread.server.files.lookup thread.server.currentDir = .directory)) := by
  obtain ⟨thread, hrun, hlookup⟩ := run_samplePut
  exact ⟨thread, hrun, hlookup, thread_frame hrun⟩

/-- In every run of the client, whatever the server sends: the files are as they were but for those that a
    `get` of the run names, and these are files and were files or nothing before. -/
theorem client_frame {memory : Memory} {start client : Client}
    {history : List (Client × Command × List Outcome)}
    (hrun : (promptSystem memory start).Run history client) :
    start.files.Kept (fun p => ∃ entry ∈ history, ∃ name,
      entry.2.1 = .get name ∧ p = start.files.place name) client.files := by
  induction hrun with
  | start hinit =>
      obtain rfl : _ = _ := hinit
      exact .refl _
  | @step history client client' label hprev hstep ih =>
      have hbefore := ih.mono fun p ⟨entry, hmem, hnames⟩ =>
        (⟨entry, List.mem_append_left _ hmem, hnames⟩ : ∃ entry ∈ history ++ [(client, label)],
          ∃ name, entry.2.1 = Command.get name ∧ p = start.files.place name)
      refine hbefore.trans ((kept_command label.1 _ _ hstep.2).mono ?_)
      rintro p ⟨name, hget, rfl⟩
      exact ⟨_, List.mem_append_right _ (List.mem_singleton.mpr rfl), name, hget, by rw [ih.place]⟩

/-- A `get` of a file `a` that holds one byte. -/
def sampleGet : Command × List Outcome :=
  (.get [0x61], [.answered true, .sent (.accepted 14), .received (.data getReplySuccess.bytes),
    .received (.data (packet fileData.type 0 13).bytes), .received (.data [0x41])])

/-- A session in which one file is stored. -/
theorem client_frame_get : ∃ client,
    (promptSystem sampleMemory (sampleClient sampleRoot)).Run
      [(sampleClient sampleRoot, sampleOpen), (openedClient sampleRoot, sampleGet)] client ∧
      client.files.lookup [0x61] = .regular [0x41] ∧
      sampleRoot.Kept (fun p => ∃ entry ∈
        [(sampleClient sampleRoot, sampleOpen), (openedClient sampleRoot, sampleGet)],
        ∃ name, entry.2.1 = .get name ∧ p = sampleRoot.place name) client.files := by
  have hexec : (((openedClient sampleRoot).command sampleMemory (.get [0x61])).exec sampleGet.2).map
      (fun client => client.files.lookup [0x61]) = some (.regular [0x41]) := by
    decide +kernel
  obtain ⟨client, hclient, hlookup⟩ := Option.map_eq_some_iff.mp hexec
  have hstep : (promptSystem sampleMemory (sampleClient sampleRoot)).step (openedClient sampleRoot)
      sampleGet client := ⟨rfl, Process.ends_of_exec hclient⟩
  have hrun := (run_sampleOpen sampleRoot).step hstep
  exact ⟨client, hrun, hlookup, client_frame hrun⟩

end NetworkLabs.Ftp
