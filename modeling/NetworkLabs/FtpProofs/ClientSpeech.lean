/-
Module: NetworkLabs.FtpProofs.ClientSpeech
Layer: FtpProofs
Purpose: What the client says. Each command is meant to send certain messages; under every outcome of its
  calls the client sends the beginning of them, and as long as no call of `send` fails, whole messages from
  one prompt to the next. So the peer never has to guess where a request begins.
Trusted boundary: the definition of `Client.requests` states the purpose of the commands
Main exports: Client.requests, Utters, utters_command, heard, client_speaks
-/
import NetworkLabs.FtpProofs.ClientBounds
import NetworkLabs.FtpProofs.ServerSpeech

namespace NetworkLabs.Ftp

open Lib

/-- The messages that a command is meant to send. -/
def Client.requests (client : Client) : Command → List Message
  | .open _ _ => [⟨openConnRequest.type, 0, []⟩]
  | .ls => [⟨listRequest.type, 0, []⟩]
  | .cd dir => [⟨cdRequest.type, 0, dir ++ [0]⟩]
  | .get file => [⟨getRequest.type, 0, file ++ [0]⟩]
  | .put file =>
      ⟨putRequest.type, 0, file ++ [0]⟩ ::
        match client.files.lookup file with
        | .regular content => [⟨fileData.type, 0, content⟩]
        | _ => []
  | .sha256 file => [⟨shaRequest.type, 0, file ++ [0]⟩]
  | .quit => [⟨quitRequest.type, 0, []⟩]
  | .invalid => []

/-- The bytes that have been sent are the beginning of some bytes at any moment; and the program stops only
    where it may, unless a call of `send` has failed. -/
def Emits {α : Type} (p : Process α) (bytes : List Byte) (stops : List Byte → Prop) : Prop :=
  p.Says (fun _ out => out <+: bytes) fun outcomes out _ => sendFailed outcomes = false → stops out

/-- The program sends some messages from the first on, and whole ones. -/
def Utters {α : Type} (p : Process α) (messages : List Message) : Prop :=
  Emits p (wireFormat.encodeAll messages) fun out =>
    ∃ done, done <+: messages ∧ out = wireFormat.encodeAll done

section

variable {α β : Type} {p : Process α} {f : α → Process β} {bytes : List Byte} {stops : List Byte → Prop}
  {messages : List Message} {memory : Memory} {client : Client}

/-! ### Saying some messages -/

theorem Emits.mono {stops' : List Byte → Prop} (h : Emits p bytes stops)
    (himp : ∀ out, stops out → stops' out) : Emits p bytes stops' :=
  Process.Says.mono h (fun _ _ hpart => hpart) fun _ out _ hwhole hsent => himp out (hwhole hsent)

theorem emits_silent (h : p.Silent) (hstops : stops []) : Emits p bytes stops := by
  have hsilent : p.Says (fun _ out => out <+: bytes) _ := .silent h fun _ => List.nil_prefix
  refine hsilent.mono (fun _ _ hpart => hpart) ?_
  rintro outcomes out a ⟨rfl, -⟩ -
  exact hstops

/-- Calls that send nothing, in front of others. -/
theorem Emits.after_silent (h : p.Silent)
    (hf : ∀ outcomes a, p.Ends outcomes a → Emits (f a) bytes stops) : Emits (p >>= f) bytes stops := by
  refine .silent_bind h (fun _ => List.nil_prefix) fun outcomes a hends => ?_
  refine Process.Says.mono (hf outcomes a hends) (fun _ _ hpart => hpart) ?_
  intro more out b hwhole hsent
  rw [sendFailed_append, Bool.or_eq_false_iff] at hsent
  exact hwhole hsent.2

/-- And the other way round. -/
theorem Emits.then_silent (h : Emits p bytes stops) (hf : ∀ a, (f a).Silent) :
    Emits (p >>= f) bytes stops := by
  have hboth : p.Says (fun _ out => out <+: bytes) fun outcomes out _ =>
      out <+: bytes ∧ (sendFailed outcomes = false → stops out) :=
    ⟨h.goes, fun outcomes a hends => ⟨h.at_end hends, h.ends outcomes a hends⟩⟩
  refine hboth.bind ?_
  rintro outcomes out a ⟨hpart, hwhole⟩
  refine (Process.Says.silent (hf a) fun more => ?_).mono (fun _ _ h => h) ?_
  · rwa [List.append_nil]
  · rintro more out' b ⟨rfl, -⟩ hsent
    rw [sendFailed_append, Bool.or_eq_false_iff] at hsent
    rw [List.append_nil]
    exact hwhole hsent.1

/-- Sending some bytes and going on if that succeeds. -/
theorem emits_send {first : List Byte} {size : ℕ} {p q : Process β} (hsize : size = first.length)
    (hq : q.Silent) (hp : Emits p bytes stops) :
    Emits (safeSend first >>= fun sent => if sent ≠ some size then q else p) (first ++ bytes)
      fun out => ∃ more, stops more ∧ out = first ++ more := by
  subst hsize
  have hsend : (safeSend first).Says (fun _ out => out <+: first ++ bytes) _ :=
    (says_safeSend first).mono (fun _ out h => h.trans (List.prefix_append _ _)) fun _ _ _ h => h
  refine hsend.bind ?_
  rintro sents out sent ⟨hpart, hwhole, hends⟩
  refine .ite (fun hsent => ?_) fun hsent => ?_
  · refine (Process.Says.silent hq fun more => ?_).mono (fun _ _ h => h) ?_
    · rw [List.append_nil]
      exact hpart.trans (List.prefix_append _ _)
    · rintro more out' b - hfailed
      rw [sendFailed_append, Bool.or_eq_false_iff] at hfailed
      obtain ⟨-, -, -, hvalue⟩ := ensures_safeSend first sents sent hends
      rw [hfailed.1] at hvalue
      exact absurd hvalue hsent
  · obtain rfl : sent = some first.length := not_not.mp hsent
    obtain rfl := hwhole (by simp)
    refine Process.Says.mono hp (fun _ more h => (List.prefix_append_right_inj _).mpr h) ?_
    intro more out' b h hfailed
    rw [sendFailed_append, Bool.or_eq_false_iff] at hfailed
    exact ⟨out', h hfailed.2, rfl⟩

theorem utters_silent (h : p.Silent) : Utters p messages := emits_silent h ⟨[], List.nil_prefix, rfl⟩

/-- An early return. -/
theorem Utters.guard {c : Prop} [Decidable c] {a : α} (hp : Utters p messages) :
    Utters (if c then pure a else p) messages :=
  .ite (fun _ => utters_silent (.done a)) fun _ => hp

/-- Sending a message and going on if that succeeds. -/
theorem utters_send {message : Message} {size : ℕ} {p q : Process β} (hbytes : bytes = message.bytes)
    (hsize : size = bytes.length) (hq : q.Silent) (hp : Utters p messages) :
    Utters (safeSend bytes >>= fun sent => if sent ≠ some size then q else p) (message :: messages) := by
  subst hbytes
  refine (emits_send hsize hq hp).mono ?_
  rintro out ⟨more, ⟨done, hdone, rfl⟩, rfl⟩
  exact ⟨message :: done, List.prefix_cons_inj .. |>.mpr hdone, rfl⟩

/-- Sending a message in two parts, its header and its payload. -/
theorem utters_payload {type : Byte} {payload : List Byte} {p q q' : Process β} (hp : p.Silent)
    (hq : q.Silent) (hq' : q'.Silent) :
    Utters (safeSend (packet type 0 (12 + payload.length)).bytes >>= fun sent =>
        if sent ≠ some packetSize then q
        else safeSend payload >>= fun sent => if sent ≠ some payload.length then q' else p)
      [⟨type, 0, payload⟩] := by
  have hall : wireFormat.encodeAll [⟨type, 0, payload⟩] =
      (packet type 0 (12 + payload.length)).bytes ++ (payload ++ []) := by
    rw [Framing.encodeAll_cons, Framing.encodeAll_nil, List.append_nil, List.append_nil]
    rfl
  have hlast : Emits p [] (· = []) := emits_silent hp rfl
  rw [Utters, hall]
  refine (emits_send (length_packet_bytes _ _ _).symm hq
    (emits_send rfl hq' hlast)).mono ?_
  rintro out ⟨_, ⟨_, rfl, rfl⟩, rfl⟩
  exact ⟨_, List.prefix_refl _, hall.symm⟩

/-- A request with a name, from the array it is built in. -/
theorem utters_request {type : Byte} {name array : List Byte} {p q : Process β}
    (harray : array.length = maxBufferSize) (hq : q.Silent) (hp : Utters p messages) :
    Utters (requestArray array type name >>= fun array =>
        safeSend (array.take (packetSize + 1 + name.length)) >>= fun sent =>
          if sent ≠ some (packetSize + 1 + name.length) then q else p)
      (⟨type, 0, name ++ [0]⟩ :: messages) := by
  by_cases hfits : name.length ≤ 2035
  · obtain ⟨array', hbuilt, htake⟩ := @requestArray_eq array type name
      (by simp only [harray, packetSize, maxBufferSize]; omega)
    rw [hbuilt, Process.pure_eq, Process.done_bind, htake]
    refine utters_send ?_ (length_requestBytes type name).symm hq hp
    have hlength : 13 + name.length = 12 + (name ++ [(0 : Byte)]).length := by
      rw [List.length_append, List.length_singleton]
      omega
    rw [requestBytes, Message.bytes, hlength]
  · rw [requestArray_long harray (by omega)]
    exact utters_silent .abort

/-! ### The commands -/

theorem silent_checkServerStatus : (checkServerStatus client).Silent :=
  .check fun _ => .ite (.done _) (.done _)

/-- The test of the connection in front of a command. -/
theorem utters_connected {f : Bool × Client → Process β}
    (hf : ∀ up client', client'.files = client.files → Utters (f (up, client')) messages) :
    Utters (checkConnection client >>= f) messages := by
  have hsilent : (checkConnection client).Silent := .ite (.done _) silent_checkServerStatus
  refine .after_silent hsilent ?_
  rintro outcomes ⟨up, client'⟩ hends
  apply hf
  unfold checkConnection at hends
  split at hends
  · cases hends
    rfl
  · rcases ensures_checkServerStatus client _ _ hends with ⟨-, h⟩ | ⟨-, h⟩
    · rw [(Prod.mk.inj h).2]
    · rw [(Prod.mk.inj h).2]
      rfl

theorem utters_listFiles : Utters (listFiles memory client) (client.requests .ls) := by
  rw [listFiles]
  refine utters_connected fun up client' _ => .guard ?_
  refine utters_send (Message.bytes_of_nil _ _).symm (length_packet_bytes _ _ _).symm (.done _) ?_
  refine utters_silent (.bind (silent_safeRecv _ _) ?_)
  rintro ⟨received, reply⟩
  exact .guard (.ite (.done _) .abort)

theorem utters_changeDirectory (dir : Path) :
    Utters (changeDirectory memory client dir) (client.requests (.cd dir)) := by
  rw [changeDirectory]
  refine utters_connected fun up client' _ => .guard (.guard ?_)
  refine utters_request (memory.length_array _ _ _) (.done _) (utters_silent ?_)
  refine .bind (silent_safeRecv _ _) ?_
  rintro ⟨received, reply⟩
  exact .guard (.ite (.done _) (.ite (.done _) (.ite (.done _) (.done _))))

theorem silent_saveFile (fileName : Path) (fileContent : List Byte) :
    (saveFile client fileName fileContent).Silent := by
  rw [saveFile]
  split
  · exact .abort
  · dsimp only
    split
    · exact .done _
    · exact .guard (.done _)

theorem utters_downloadFiles (file : Path) :
    Utters (downloadFiles memory client file) (client.requests (.get file)) := by
  rw [downloadFiles]
  refine utters_connected fun up client' _ => .guard ?_
  refine utters_request (memory.length_array _ _ _) (.done _) (utters_silent ?_)
  refine .bind (silent_safeRecv _ _) ?_
  rintro ⟨received, reply⟩
  refine .guard (.guard (.bind (silent_safeRecv _ _) ?_))
  rintro ⟨received, head⟩
  refine .guard (.bind (silent_safeRecv _ _) ?_)
  rintro ⟨received, content⟩
  exact .guard (silent_saveFile _ _)

theorem utters_sha256 (file : Path) :
    Utters (sha256 memory client file) (client.requests (.sha256 file)) := by
  rw [sha256]
  refine utters_connected fun up client' _ => .guard ?_
  refine utters_request (memory.length_array _ _ _) (.done _) (utters_silent ?_)
  refine .bind (silent_safeRecv _ _) ?_
  rintro ⟨received, reply⟩
  refine .guard (.guard (.bind (silent_safeRecv _ _) ?_))
  rintro ⟨received, head⟩
  refine .guard (.bind (silent_safeRecv _ _) ?_)
  rintro ⟨received, value⟩
  exact .guard (.done _)

theorem utters_sendFile (file : Path) : Utters (sendFile client file)
    (match client.files.lookup file with
      | .regular content => [⟨fileData.type, 0, content⟩]
      | _ => []) := by
  rw [sendFile]
  split
  · exact utters_silent .abort
  · next size hsize =>
      refine .guard ?_
      split
      · exact utters_silent (.done _)
      · next content hread =>
          obtain ⟨file', hlookup⟩ : ∃ file', client.files.lookup file = .regular file' := by
            unfold FileSystem.fileSize FileSystem.status at hsize
            split at hsize
            · cases hnode : client.files.lookup file with
              | regular file' => exact ⟨file', rfl⟩
              | _ => simp [hnode] at hsize
            · cases hsize
          obtain ⟨rfl, rfl⟩ := size_and_content hlookup hsize hread
          rw [hlookup]
          exact utters_payload (.done _) (.done _) (.done _)

theorem utters_uploadFiles (file : Path) :
    Utters (uploadFiles memory client file) (client.requests (.put file)) := by
  rw [uploadFiles]
  refine utters_connected fun up client' hfiles => .guard ?_
  split
  · exact utters_silent .abort
  · exact utters_silent (.done _)
  · refine utters_request (memory.length_array _ _ _) (.done _) ?_
    refine .after_silent (silent_safeRecv _ _) ?_
    rintro outcomes ⟨received, reply⟩ -
    refine Utters.guard (Utters.guard ?_)
    rw [← hfiles]
    exact utters_sendFile file

theorem utters_openCommand (serverIp serverPort : List Byte) :
    Utters (openCommand memory client serverIp serverPort)
      (client.requests (.open serverIp serverPort)) := by
  rw [openCommand]
  refine Utters.guard ?_
  split
  · exact utters_silent .abort
  · refine Emits.after_silent ?_ fun outcomes connected _ => Utters.guard ?_
    · split
      · exact .check fun _ => .done _
      · exact .done _
    · apply Emits.then_silent
      · refine utters_send (Message.bytes_of_nil _ _).symm (length_packet_bytes _ _ _).symm (.done _)
          (utters_silent (.bind (silent_safeRecv _ _) ?_))
        rintro ⟨flag, reply⟩
        exact .guard (.guard (.done _))
      · rintro ⟨result, client'⟩
        exact .ite (.done _) (.done _)

theorem utters_quitCommand : Utters (quitCommand memory client) (client.requests .quit) := by
  rw [quitCommand]
  refine Utters.guard (Emits.then_silent ?_ ?_)
  · refine Emits.after_silent silent_checkServerStatus ?_
    rintro outcomes ⟨up, client'⟩ -
    refine Utters.guard ?_
    refine utters_send (Message.bytes_of_nil _ _).symm (length_packet_bytes _ _ _).symm (.done _)
      (utters_silent (.bind (silent_safeRecv _ _) ?_))
    rintro ⟨received, reply⟩
    exact .guard (.guard (.done _))
  · rintro ⟨result, client'⟩
    exact .ite (.done _) (.done _)

/-- Every command, from one prompt to the next. -/
theorem utters_command (command : Command) :
    Utters (client.command memory command) (client.requests command) := by
  refine Emits.then_silent ?_ fun client' => .ite (.check fun _ => .ite (.done _) (.done _)) (.done _)
  cases command with
  | «open» serverIp serverPort => exact utters_openCommand serverIp serverPort
  | ls => exact utters_listFiles
  | cd dir => exact Utters.guard (utters_changeDirectory dir)
  | get file => exact Utters.guard (utters_downloadFiles file)
  | put file => exact Utters.guard (utters_uploadFiles file)
  | sha256 file => exact Utters.guard (utters_sha256 file)
  | quit => exact utters_quitCommand
  | invalid => exact utters_silent (.done _)

end

/-! ### Whole runs -/

/-- The bytes that the client sends in a command of its run. -/
def heard (memory : Memory) (entry : Client × Command × List Outcome) : List Byte :=
  (entry.1.command memory entry.2.1).emitted entry.2.2

/-- The messages that the client has sent in a command of its run: the first ones of those it is meant to
    send, and nothing else. -/
def Client.Requested (memory : Memory) (entry : Client × Command × List Outcome)
    (messages : List Message) : Prop :=
  messages <+: entry.1.requests entry.2.1 ∧ heard memory entry = wireFormat.encodeAll messages

/-- At any moment of any run of the client in which no call of `send` has failed, whatever the server sends
    and wherever the other calls fail: every command has sent whole messages, the first ones of those it is
    meant to send; the command it is at has sent the beginning of its messages; and whoever follows the
    length fields, if the messages fit them, reads all of these one by one. -/
theorem client_speaks {memory : Memory} {start client : Client} {command : Command}
    {history : List (Client × Command × List Outcome)} {outcomes : List Outcome} {q : Process Client}
    (hrun : (promptSystem memory start).Run history client)
    (hsent : ∀ entry ∈ history, sendFailed entry.2.2 = false)
    (hgoes : (client.command memory command).GoesOn outcomes q) :
    ∃ requests, List.Forall₂ (Client.Requested memory) history requests ∧
      heard memory (client, command, outcomes) <+: wireFormat.encodeAll (client.requests command) ∧
      ((∀ message ∈ requests.flatten ++ client.requests command, message.Fits) →
        ∃ done rest, wireFormat.messages
            (history.flatMap (heard memory) ++ heard memory (client, command, outcomes)) =
              (requests.flatten ++ done, rest) ∧
          wireFormat.CutOff (client.requests command) done (heard memory (client, command, outcomes))
            rest) := by
  have hpart := (utters_command command).goes outcomes q hgoes
  obtain ⟨requests, hrequests⟩ : ∃ requests, List.Forall₂ (Client.Requested memory) history requests := by
    clear hgoes hpart
    induction hrun with
    | start => exact ⟨[], .nil⟩
    | @step history client client' label hprev hstep ih =>
        rw [List.forall_mem_append] at hsent
        obtain ⟨requests, hrequests⟩ := ih hsent.1
        obtain ⟨done, hdone, hout⟩ :=
          (utters_command label.1).ends _ _ hstep.2 (hsent.2 _ (List.mem_singleton.mpr rfl))
        exact ⟨requests ++ [done], List.rel_append hrequests (.cons ⟨hdone, hout⟩ .nil)⟩
  have hheard : history.flatMap (heard memory) = wireFormat.encodeAll requests.flatten := by
    clear hrun hsent
    induction hrequests with
    | nil => rfl
    | cons hfirst _ ih =>
        rw [List.flatMap_cons, List.flatten_cons, Framing.encodeAll_append, hfirst.2, ih]
  refine ⟨requests, hrequests, hpart, fun hfits => ?_⟩
  rw [hheard]
  rw [List.forall_mem_append] at hfits
  exact Framing.messages_append hfits.1 hfits.2 hpart

/-- A session in which a file is asked for. -/
theorem client_speaks_get :
    ∃ requests, List.Forall₂ (Client.Requested sampleMemory) [(sampleClient sampleRoot, sampleOpen)]
        requests ∧
      requestBytes getRequest.type [0x61] <+:
        wireFormat.encodeAll [⟨getRequest.type, 0, [0x61, 0]⟩] := by
  have hexec : (((openedClient sampleRoot).command sampleMemory (.get [0x61])).exec
      sampleGet.2).isSome := by
    decide +kernel
  have hheard : heard sampleMemory (openedClient sampleRoot, sampleGet) =
      requestBytes getRequest.type [0x61] := by
    decide +kernel
  obtain ⟨client, hclient⟩ := Option.isSome_iff_exists.mp hexec
  obtain ⟨requests, hrequests, hpart, -⟩ := client_speaks (run_sampleOpen sampleRoot) (by decide)
    (Process.ends_of_exec hclient).goesOn
  exact ⟨requests, hrequests, hheard ▸ hpart⟩

end NetworkLabs.Ftp
