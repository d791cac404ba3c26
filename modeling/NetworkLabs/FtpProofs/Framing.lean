/-
Module: NetworkLabs.FtpProofs.Framing
Layer: FtpProofs
Purpose: Framing agreement over whole sessions. In every run in which each call of `recv` returns all it
  asked for, and whatever the interleaving of the two programs, the client is at its prompt only with both
  streams empty and the serving thread ready, and the files are what the commands typed so far are meant
  to make of them. The one command the client does not wait for is an upload: after it, the same holds as
  soon as the thread has done what it still can.
Trusted boundary: none
Main exports: View.Effect, View.perform_effect, startView, ServerIdle, framing_agreement
-/
import NetworkLabs.FtpProofs.View

namespace NetworkLabs.Ftp

open Lib

/-- What the user of a connected session can rely on after a command. -/
def View.Effect (before after : View) : Command → Prop
  | .cd name =>
      after.here = before.here ∧ after.there = before.there ∧
        after.dir = (if before.there.lookup (before.remoteDir name) = .directory then
          before.remoteDir name else before.dir)
  | .get name =>
      after.there = before.there ∧ after.dir = before.dir ∧
        (∀ content, before.there.lookup (before.remotePath name) = .regular content →
          after.here.lookup name = .regular content) ∧
        ((∀ content, before.there.lookup (before.remotePath name) ≠ .regular content) →
          after.here = before.here)
  | .put name =>
      after.here = before.here ∧ after.dir = before.dir ∧
        (∀ content, before.here.lookup name = .regular content →
          after.there.lookup (before.remotePath name) = .regular content) ∧
        ((∀ content, before.here.lookup name ≠ .regular content) → after.there = before.there)
  | _ => after.here = before.here ∧ after.there = before.there ∧ after.dir = before.dir

/-- The commands do what their user relies on. -/
theorem View.perform_effect {before : View} (hphase : before.phase = .connected) (command : Command) :
    before.Effect (before.perform command) command := by
  cases command with
  | cd name =>
      by_cases hdir : before.there.lookup (before.remoteDir name) = .directory
      · simp [View.Effect, View.perform, hphase, hdir]
      · simp [View.Effect, View.perform, hphase, hdir]
  | get name =>
      cases hnode : before.there.lookup (before.remotePath name) with
      | regular content =>
          simp [View.Effect, View.perform, hphase, hnode, FileSystem.lookup_store]
      | _ => simp [View.Effect, View.perform, hphase, hnode]
  | put name =>
      cases hnode : before.here.lookup name with
      | regular content =>
          simp [View.Effect, View.perform, hphase, hnode, FileSystem.lookup_store]
      | _ => simp [View.Effect, View.perform, hphase, hnode]
  | _ => simp [View.Effect, View.perform, hphase]

/-- The view of a client and a thread that have not yet spoken. -/
def startView (client : Client) (server : Server) : View where
  phase := .fresh
  ended := false
  here := client.files
  there := server.files
  dir := server.currentDir
  uploading := false

/-- A client at its first prompt, and a thread that has just been started for it. -/
def startNet (memory : Memory) (client : Client) (server : Server) : FtpNet :=
  ⟨.done client, acceptClient memory server, [], []⟩

/-- The state of a client that has just been started. -/
structure Client.Started (client : Client) : Prop where
  info : client.info = none
  sock : client.sock = .unconnected
  running : client.ended = false

section

variable (memory : Memory) (shell : Shell)

/-- The serving thread cannot move. -/
def ServerIdle (c : FtpNet) : Prop :=
  ∀ move, c.step (clientAct memory) (serverAct memory shell) (.right move) = none

/-- The move leaves the connection up, and if it is a call of `recv`, it returns all it asked for. -/
abbrev FullRead (c : FtpNet) (side : Side Command) : Prop :=
  Net.FullReads (clientAct memory) (serverAct memory shell) c side

/-- Both parties are steady, and on their way to rest in a view. -/
def FtpOnTrack (view : View) (c : FtpNet) (weight : ℕ) : Prop :=
  (ftpSession memory shell).OnTrack (clientAct memory) (serverAct memory shell) (Process.Steady ZeroFree)
    (Process.Steady ZeroFree) view c weight

variable {memory shell} {client : Client} {server : Server} {c : FtpNet}

theorem server_never_inputs (q : Process Served) (next : Command → Process Served) :
    serverAct memory shell q ≠ .input next := by
  refine Process.act_ne_input ?_ q next
  rintro (server | server) next
  · exact Process.act_ne_input (fun _ _ h => by cases h) _ next
  · rintro ⟨⟩

theorem not_whole_of_idle (hidle : ServerIdle memory shell c) {call : Call} {count : ℕ}
    {q : Process Served} {inbox out : List Byte} :
    ¬(serverAct memory shell c.right).Whole c.toRight call count q inbox out := by
  intro hwhole
  obtain ⟨move, -, -, hplay⟩ := hwhole.play (clientAct memory c.left).stopped
  have hstep := hidle move
  simp only [Net.step, hplay, Option.map_some] at hstep
  cases hstep

theorem startNet_onTrack (hstarted : client.Started) :
    FtpOnTrack memory shell (startView client server) (startNet memory client server) 0 where
  left := .done client
  right := steady_acceptClient memory server
  way := by
    refine ⟨_, none, ?_, .refl _, by simp⟩
    exact ⟨⟨client, rfl, rfl, hstarted.running, by simp [startView, hstarted.info],
      fun _ _ => hstarted.sock⟩, ⟨server, rfl, rfl, rfl⟩, rfl, rfl⟩

/-- The client at its prompt takes a command. -/
theorem client_input {client : Client} (hresult : c.left.result = some client)
    (hrunning : client.ended = false) :
    clientAct memory c.left = .input (client.command memory) := by
  have hact : clientAct memory c.left = promptAct memory client := Process.act_of_result hresult
  rw [hact, promptAct, hrunning]
  rfl

/-- Framing agreement: whatever has been typed, at the prompt everything has been read, the thread is
    ready and the files are what they should be, and from every state of the run the prompt is reached. -/
theorem framing_agreement (hstarted : client.Started) {history : List (FtpNet × Side Command)}
    (hrun : (ftpSystem memory shell (startNet memory client server)).Run history c)
    (hfull : ∀ entry ∈ history, FullRead memory shell entry.1 entry.2)
    (hadmits : (ftpSession memory shell).Admits (startView client server) (Net.typed history)) :
    let view := (ftpSession memory shell).performAll (startView client server) (Net.typed history)
    (∀ client', c.left.result = some client' → client'.ended = false →
      view.uploading = false ∨ ServerIdle memory shell c → AtRest memory view c) ∧
    (∀ commands command, Net.typed history = commands ++ [command] →
      ((ftpSession memory shell).performAll (startView client server) commands).phase = .connected →
      ((ftpSession memory shell).performAll (startView client server) commands).Effect view command) ∧
    (ftpSystem memory shell (startNet memory client server)).Inevitable
      (fun c side => FullRead memory shell c side ∧ Net.Unattended side) (AtRest memory view) c := by
  intro view
  have hanswers := @ftpSession_answers memory shell
  have hclient := steady_client memory
  have hserver := steady_server memory shell
  obtain ⟨weight, htrack⟩ := Session.onTrack_of_run hanswers hclient hserver server_never_inputs
    (startNet_onTrack hstarted) hrun (fun entry hmem => (hfull entry hmem).undisturbed) hadmits
  refine ⟨?_, ?_, ?_⟩
  · intro client' hresult hrunning hdone
    refine htrack.rest_of_prompt hanswers (client_input hresult hrunning) ?_
    exact hdone.imp id fun hidle => not_whole_of_idle hidle
  · intro commands command htyped hphase
    have hview : view =
        ((ftpSession memory shell).performAll (startView client server) commands).perform command := by
      simp only [view, htyped, Session.performAll, List.foldl_append, List.foldl_cons, List.foldl_nil]
      rfl
    rw [hview]
    exact View.perform_effect hphase command
  · exact htrack.inevitable hanswers hclient hserver server_never_inputs
      (fun c side h => h.undisturbed) (fun c side h => h) _

end

/-! ### A session -/

/-- Uninitialised memory that happens to hold zero bytes. -/
def sampleMemory : Memory where
  array _ _ size := List.replicate size 0
  length_array _ _ _ := List.length_replicate

/-- A shell whose commands print nothing. -/
def sampleShell : Shell := fun _ _ => some []

/-- A file system with one file, in a directory `/` in which every call succeeds. -/
def sampleFiles (path content : List Byte) : FileSystem where
  workingDir := [slash]
  place := id
  node p := if p = path then .regular content else .absent
  allows _ _ := true
  room _ := 2 ^ 32

theorem sampleFiles_readable (path content : List Byte) :
    (sampleFiles path content).Readable path content :=
  ⟨if_pos rfl, rfl, rfl, rfl⟩

theorem sampleFiles_writable {path content name more : List Byte} (hname : name ≠ path)
    (hmore : more.length ≤ 2 ^ 32) : (sampleFiles path content).Writable name more :=
  ⟨.inl (if_neg hname), rfl, rfl, hmore⟩

/-- A client that has just been started. -/
def sampleClient (files : FileSystem) : Client where
  info := none
  sock := .unconnected
  files := files
  console := []
  turn := 0
  ended := false

/-- A thread that has just been started. -/
def sampleServer (files : FileSystem) : Server where
  files := files
  currentDir := [slash]
  turn := 0

/-- `127.0.0.1`. -/
def sampleIp : List Byte := [0x31, 0x32, 0x37, 0x2e, 0x30, 0x2e, 0x30, 0x2e, 0x31]

/-- `82`. -/
def samplePort : List Byte := [0x38, 0x32]

/-- Typing a command and then running in lockstep. -/
theorem exists_run_typed {memory : Memory} {shell : Shell} {start c d : FtpNet} {client : Client}
    {command : Command} {last : Option Call} {history : List (FtpNet × Side Command)}
    (hrun : (ftpSystem memory shell start).Run history c) (hresult : c.left.result = some client)
    (hrunning : client.ended = false)
    (hleads : Leads memory shell { c with left := client.command memory command } d last) :
    ∃ history', (ftpSystem memory shell start).Run history' d ∧
      Net.typed history' = Net.typed history ++ [command] ∧
      ((∀ entry ∈ history, FullRead memory shell entry.1 entry.2) →
        ∀ entry ∈ history', FullRead memory shell entry.1 entry.2) := by
  have hstep : (ftpSystem memory shell start).step c (.left (.input command))
      { c with left := client.command memory command } := by
    simp [ftpSystem, Net.system, Net.step, client_input hresult hrunning, Act.play]
  obtain ⟨weight, hleads⟩ := hleads
  obtain ⟨more, hrun', hfull, htyped⟩ := hleads.exists_run (hrun.step hstep)
  refine ⟨_, hrun', ?_, ?_⟩
  · simp only [Net.typed] at htyped ⊢
    simp [htyped]
  · intro hbefore entry hmem
    simp only [List.append_assoc, List.mem_append, List.mem_singleton] at hmem
    rcases hmem with hmem | rfl | hmem
    · exact hbefore entry hmem
    · trivial
    · exact hfull entry hmem

/-- A session that has just been opened. -/
theorem exists_run_open (here there : FileSystem) :
    ∃ history c client' server', (ftpSystem sampleMemory sampleShell
        (startNet sampleMemory (sampleClient here) (sampleServer there))).Run history c ∧
      (∀ entry ∈ history, FullRead sampleMemory sampleShell entry.1 entry.2) ∧
      Net.typed history = [.open sampleIp samplePort] ∧ c = ⟨c.left, .done (.next server'), [], []⟩ ∧
      c.left.result = some client' ∧ client'.info ≠ none ∧ client'.ended = false ∧
      client'.files = here ∧ server'.files = there ∧ server'.currentDir = [slash] := by
  obtain ⟨client, hinfo, -, hended, hfiles, hleads⟩ := @command_open sampleMemory sampleShell
    (sampleClient here) (sampleServer there) sampleIp samplePort (by decide) (by decide) 82 rfl rfl
  obtain ⟨client', hresult, hinfo', hended', hfiles', -⟩ := result_createSocket client
  have hstart : (ftpSystem sampleMemory sampleShell
      (startNet sampleMemory (sampleClient here) (sampleServer there))).Run []
        (startNet sampleMemory (sampleClient here) (sampleServer there)) := .start rfl
  have hresult₀ : (startNet sampleMemory (sampleClient here) (sampleServer there)).left.result =
      some (sampleClient here) := rfl
  obtain ⟨history, hrun, htyped, hfull⟩ := exists_run_typed hstart hresult₀ rfl hleads
  exact ⟨history, _, client', (sampleServer there).turned, hrun, hfull (by simp), htyped, rfl, hresult,
    by simp [hinfo', hinfo], hended'.trans hended, hfiles'.trans hfiles, rfl, rfl⟩

/-- An upload is still on the way when the client is back at its prompt. -/
theorem upload_in_flight :
    ∃ history c client', (ftpSystem sampleMemory sampleShell
        (startNet sampleMemory (sampleClient (sampleFiles [0x61] [0x41]))
          (sampleServer (sampleFiles [] [])))).Run history c ∧
      (∀ entry ∈ history, FullRead sampleMemory sampleShell entry.1 entry.2) ∧
      (ftpSession sampleMemory sampleShell).Admits
        (startView (sampleClient (sampleFiles [0x61] [0x41])) (sampleServer (sampleFiles [] [])))
        (Net.typed history) ∧
      Net.typed history = [.open sampleIp samplePort, .put [0x61]] ∧
      c.left.result = some client' ∧ client'.ended = false ∧ c.toRight ≠ [] := by
  obtain ⟨history, c, client, server, hrun, hfull, htyped, hc, hresult, hinfo, hrunning, hfiles, hthere,
    hdir⟩ := exists_run_open (sampleFiles [0x61] [0x41]) (sampleFiles [] [])
  have hreadable : client.files.Readable [0x61] [0x41] := hfiles ▸ sampleFiles_readable _ _
  have hleads := @command_put_sent sampleMemory sampleShell client server [0x61] (by simp) (by simp)
    hinfo [0x41] hreadable
  obtain ⟨client', hresult', -, hended', -, -⟩ :=
    result_createSocket (client.printNamed "File uploaded:" [0x61])
  have hnet : { c with left := client.command sampleMemory (.put [0x61]) } =
      (⟨client.command sampleMemory (.put [0x61]), .done (.next server), [], []⟩ : FtpNet) := by
    rw [hc]
  obtain ⟨history', hrun', htyped', hfull'⟩ :=
    exists_run_typed hrun hresult hrunning (hnet ▸ hleads)
  rw [htyped] at htyped'
  refine ⟨history', _, client', hrun', hfull' hfull, ?_, htyped', hresult', hended'.trans hrunning,
    by simp [packet_bytes_ne_nil]⟩
  rw [htyped']
  refine ⟨⟨rfl, by decide, by decide, rfl⟩, ⟨⟨by simp, by simp, by decide⟩, fun _ => ⟨rfl, .inr ?_⟩⟩,
    trivial⟩
  have hwritable : (sampleFiles [] []).Writable [0x2f, 0x61] [0x41] :=
    sampleFiles_writable (by simp) (by simp)
  exact ⟨[0x41], by simp, sampleFiles_readable _ _, hwritable⟩

/-- A session in which one file is downloaded. -/
theorem framing_agreement_download :
    ∃ history c, Net.typed history = [.open sampleIp samplePort, .get [0x61]] ∧
      (ftpSystem sampleMemory sampleShell
        (startNet sampleMemory (sampleClient (sampleFiles [] []))
          (sampleServer (sampleFiles [0x2f, 0x61] [0, 0x41])))).Run history c ∧
      AtRest sampleMemory ((ftpSession sampleMemory sampleShell).performAll
        (startView (sampleClient (sampleFiles [] [])) (sampleServer (sampleFiles [0x2f, 0x61] [0, 0x41])))
        [.open sampleIp samplePort, .get [0x61]]) c := by
  obtain ⟨history, c, client, server, hrun, hfull, htyped, hc, hresult, hinfo, hrunning, hfiles, hthere,
    hdir⟩ := exists_run_open (sampleFiles [] []) (sampleFiles [0x2f, 0x61] [0, 0x41])
  have hpath : server.filePath (cutName [0x61]) = [0x2f, 0x61] := by
    rw [Server.filePath, hdir]
    rfl
  have hreadable : server.files.Readable (server.filePath (cutName [0x61])) [0, 0x41] := by
    rw [hthere, hpath]
    exact sampleFiles_readable _ _
  have hvacant : (sampleFiles [] []).Writable [0x61] [0, 0x41] :=
    sampleFiles_writable (by simp) (by simp)
  have hwritable : client.files.Writable [0x61] [0, 0x41] := hfiles ▸ hvacant
  obtain ⟨client₂, hcontinues, -, hleads⟩ := command_get sampleMemory sampleShell
    (by simp : [(0x61 : Byte)].length ≤ 2035) (by simp) hinfo (by simp) hreadable hwritable
  obtain ⟨client', hresult', -, hended', -, -⟩ := result_createSocket client₂
  have hnet : { c with left := client.command sampleMemory (.get [0x61]) } =
      (⟨client.command sampleMemory (.get [0x61]), .done (.next server), [], []⟩ : FtpNet) := by
    rw [hc]
  obtain ⟨history', hrun', htyped', hfull'⟩ :=
    exists_run_typed hrun hresult hrunning (hnet ▸ hleads)
  rw [htyped] at htyped'
  have hadmits : (ftpSession sampleMemory sampleShell).Admits
      (startView (sampleClient (sampleFiles [] [])) (sampleServer (sampleFiles [0x2f, 0x61] [0, 0x41])))
      (Net.typed history') := by
    rw [htyped']
    refine ⟨⟨rfl, by decide, by decide, rfl⟩, ⟨⟨by simp, by simp, by decide⟩, fun _ => ⟨rfl, ?_⟩⟩,
      trivial⟩
    intro content hcontent
    obtain rfl : [0, 0x41] = content := by
      have h : Node.regular [0, 0x41] = .regular content := hcontent
      simpa using h
    exact ⟨by simp, sampleFiles_readable _ _, hvacant⟩
  have hrest := (framing_agreement ⟨rfl, rfl, rfl⟩ hrun' (hfull' hfull) hadmits).1 client' hresult'
    ((hended'.trans hcontinues.ended).trans hrunning)
  rw [htyped'] at hrest
  exact ⟨history', _, htyped', hrun', hrest (.inl rfl)⟩

end NetworkLabs.Ftp
