/-
Module: NetworkLabs.FtpProofs.Segmentation
Layer: FtpProofs
Purpose: What the way in which TCP cuts its streams does to one `safe_recv` and to a whole transfer.
  `safe_recv` stops at the first zero byte, so its value is the number of bytes it was asked for only if
  there is no zero byte before the last of them, and it leaves bytes behind if a piece ends behind a zero
  byte. As long as no piece of a read that was cut short holds a zero byte, `get` and `put` copy their file
  and leave nothing behind.
Trusted boundary: none
Main exports: safeRecv_exact_iff, Delivered, exchange_of_zeroFree, transfer_of_zeroFree
-/
import NetworkLabs.FtpProofs.Framing

namespace NetworkLabs.Ftp

open Lib

/-! ### One read -/

section

variable {buffer buffer' stream left : List Byte} {ret rest : ℕ} {value : Option ℕ}

/-- Without a zero byte among the bytes asked for, all of them are read, however they are cut. -/
theorem reads_of_zeroFree (hbuffer : ret + rest ≤ buffer.length) (hstream : rest ≤ stream.length)
    (hzero : 0 ∉ stream.take rest)
    (h : (recvLoop 0 rest ret rest buffer).Reads stream (value, buffer') left) :
    value = some (ret + rest) ∧ buffer' = overwrite buffer ret (stream.take rest) ∧
      left = stream.drop rest := by
  induction rest using Nat.strongRecOn generalizing ret buffer stream with
  | _ rest ih =>
      by_cases hrest : rest = 0
      · subst hrest
        rw [recvLoop_zero] at h
        cases h
        simp [overwrite]
      · rw [recvLoop_eq hrest] at h
        cases h with
        | @recv _ count _ _ _ _ hpos hle hin hnext =>
            have hlen : (stream.take count).length = count := by
              rw [List.length_take, Nat.min_eq_left hin]
            have hne : stream.take count ≠ [] := List.ne_nil_of_length_pos (by omega)
            have hsplit : stream.take rest = stream.take count ++ (stream.drop count).take (rest - count) := by
              rw [← List.take_add, Nat.add_sub_cancel' hle]
            rw [hsplit, List.mem_append, not_or] at hzero
            have hnone : (stream.take count).findIdx? (· = 0) = none := by
              simpa using findIdx?_append_of_not_mem hzero.1 []
            simp only [if_neg hne, hnone, hlen] at hnext
            obtain ⟨hvalue, hbuf, hleft⟩ := ih (rest - count) (by omega)
              (by rw [length_overwrite (by omega)]; omega)
              (by rw [List.length_drop]; omega) hzero.2 hnext
            refine ⟨?_, ?_, ?_⟩
            · rw [hvalue]
              congr 1
              omega
            · have hmerge := overwrite_overwrite (show ret ≤ buffer.length by omega) (stream.take count)
                ((stream.drop count).take (rest - count))
              rw [hlen] at hmerge
              rw [hbuf, hmerge, hsplit]
            · rw [hleft, List.drop_drop, Nat.add_sub_cancel' hle]

/-- However the stream is cut, the loop ends. -/
theorem always_recvLoop (hstream : rest ≤ stream.length) :
    (recvLoop 0 rest ret rest buffer).Always (fun _ _ => True) stream := by
  induction rest using Nat.strongRecOn generalizing ret buffer stream with
  | _ rest ih =>
      by_cases hrest : rest = 0
      · subst hrest
        rw [recvLoop_zero]
        trivial
      · rw [recvLoop_eq hrest]
        refine ⟨Nat.pos_of_ne_zero hrest, List.ne_nil_of_length_pos (by omega), ?_⟩
        intro count hpos hle hin
        have hlen : (stream.take count).length = count := by
          rw [List.length_take, Nat.min_eq_left hin]
        have hne : stream.take count ≠ [] := List.ne_nil_of_length_pos (by omega)
        cases hfind : (stream.take count).findIdx? (· = 0) with
        | some i =>
            simp only [if_neg hne, hfind]
            trivial
        | none =>
            simp only [if_neg hne, hfind, hlen]
            refine ih (rest - count) (by omega) ?_
            rw [List.length_drop]
            omega

/-- With a zero byte among the bytes asked for, the value is the position behind it. Some of the bytes
    behind it have been read as well, and the others are left in the stream. -/
theorem reads_of_zero (hbuffer : ret + rest ≤ buffer.length) (hstream : rest ≤ stream.length)
    {stop : ℕ} (hzero : (stream.take rest).findIdx? (· = 0) = some stop)
    (h : (recvLoop 0 rest ret rest buffer).Reads stream (value, buffer') left) :
    value = some (ret + stop + 1) ∧ ∃ read, stop < read ∧ read ≤ rest ∧
      buffer' = overwrite buffer ret (stream.take read) ∧ left = stream.drop read := by
  induction rest using Nat.strongRecOn generalizing ret buffer stream stop with
  | _ rest ih =>
      by_cases hrest : rest = 0
      · subst hrest
        simp at hzero
      · rw [recvLoop_eq hrest] at h
        cases h with
        | @recv _ count _ _ _ _ hpos hle hin hnext =>
            have hlen : (stream.take count).length = count := by
              rw [List.length_take, Nat.min_eq_left hin]
            have hne : stream.take count ≠ [] := List.ne_nil_of_length_pos (by omega)
            have hsplit : stream.take rest = stream.take count ++ (stream.drop count).take (rest - count) := by
              rw [← List.take_add, Nat.add_sub_cancel' hle]
            rw [hsplit, List.findIdx?_append] at hzero
            cases hfind : (stream.take count).findIdx? (· = 0) with
            | some i =>
                rw [hfind, Option.some_or] at hzero
                simp only [if_neg hne, hfind] at hnext
                cases hzero
                have hlt : stop < count := by
                  have h := (List.findIdx?_eq_some_iff_findIdx_eq.mp hfind).1
                  rwa [hlen] at h
                cases hnext
                exact ⟨rfl, count, hlt, hle, rfl, rfl⟩
            | none =>
                rw [hfind, Option.none_or] at hzero
                simp only [if_neg hne, hfind, hlen] at hnext
                obtain ⟨stop', hstop', rfl⟩ := Option.map_eq_some_iff.mp hzero
                obtain ⟨hvalue, read, hlow, hhigh, hbuf, hleft⟩ := ih (rest - count) (by omega)
                  (by rw [length_overwrite (by omega)]; omega)
                  (by rw [List.length_drop]; omega) hstop' hnext
                refine ⟨?_, count + read, ?_, by omega, ?_, ?_⟩
                · rw [hvalue, hlen]
                  congr 1
                  omega
                · rw [hlen]
                  omega
                · have hmerge := overwrite_overwrite (show ret ≤ buffer.length by omega)
                    (stream.take count) ((stream.drop count).take read)
                  rw [hlen] at hmerge
                  rw [hbuf, hmerge, ← List.take_add]
                · rw [hleft, List.drop_drop]

end

/-- `safe_recv` returns the number of bytes it was asked for, has them in the buffer and leaves the rest of
    the stream, exactly if there is no stop byte before the last of them. -/
theorem reads_exact_iff {buffer buffer' stream left : List Byte} {n : ℕ} {value : Option ℕ}
    (hbuffer : n ≤ buffer.length) (hstream : n ≤ stream.length)
    (h : (safeRecv buffer n).Reads stream (value, buffer') left) :
    (value = some n ∧ buffer' = stream.take n ++ buffer.drop n ∧ left = stream.drop n) ↔
      0 ∉ stream.take (n - 1) := by
  rw [safeRecv, safeRecvUntil, if_pos hbuffer] at h
  have hshort : stream.take (n - 1) = (stream.take n).take (n - 1) := by
    rw [List.take_take, Nat.min_eq_left (by omega)]
  have hlen : (stream.take n).length = n := by rw [List.length_take, Nat.min_eq_left hstream]
  cases hfind : (stream.take n).findIdx? (· = 0) with
  | none =>
      have hzero : 0 ∉ stream.take n := by
        intro hmem
        have h := List.findIdx?_eq_none_iff.mp hfind 0 hmem
        simp at h
      obtain ⟨hvalue, hbuf, hleft⟩ := reads_of_zeroFree (by omega) hstream hzero h
      refine ⟨fun _ hmem => hzero (hshort ▸ hmem |> List.mem_of_mem_take), fun _ => ⟨?_, ?_, hleft⟩⟩
      · rw [hvalue, Nat.zero_add]
      · rw [hbuf, overwrite_zero, hlen]
  | some stop =>
      obtain ⟨hvalue, read, hlow, hhigh, hbuf, hleft⟩ := reads_of_zero (by omega) hstream hfind h
      rw [List.findIdx?_eq_some_iff_getElem] at hfind
      obtain ⟨hlt, hat, hbefore⟩ := hfind
      have hat' : (stream.take n)[stop] = 0 := by simpa using hat
      constructor
      · rintro ⟨hn, -, -⟩ hmem
        rw [hvalue] at hn
        have hzero : stop = n - 1 := by
          have h := Option.some.inj hn
          omega
        subst hzero
        rw [hshort] at hmem
        obtain ⟨i, hi, hval⟩ := List.getElem_of_mem hmem
        rw [List.length_take] at hi
        rw [List.getElem_take] at hval
        have h := hbefore i (by omega)
        rw [hval] at h
        simp at h
      · intro hmem
        have hzero : ¬stop < n - 1 := by
          intro hlt'
          refine hmem ?_
          rw [hshort, ← hat']
          refine List.mem_of_getElem? (i := stop) ?_
          rw [List.getElem?_take_of_lt hlt', List.getElem?_eq_getElem hlt]
        rw [hlen] at hlt
        have hread : read = n := by omega
        subst hread
        refine ⟨?_, ?_, hleft⟩
        · rw [hvalue]
          congr 1
          omega
        · rw [hbuf, overwrite_zero, hlen]

/-- However the stream is cut, `safe_recv` ends, and it returns the number of bytes it was asked for, has
    them in the buffer and leaves the rest of the stream, exactly if there is no zero byte before the last
    of them. -/
theorem safeRecv_exact_iff {buffer stream : List Byte} {n : ℕ} (hbuffer : n ≤ buffer.length)
    (hstream : n ≤ stream.length) :
    (safeRecv buffer n).Always (fun read left =>
      (read.1 = some n ∧ read.2 = stream.take n ++ buffer.drop n ∧ left = stream.drop n) ↔
        0 ∉ stream.take (n - 1)) stream := by
  have hends : (safeRecv buffer n).Always (fun _ _ => True) stream := by
    rw [safeRecv, safeRecvUntil, if_pos hbuffer]
    exact always_recvLoop hstream
  exact hends.of_reads fun read left h => reads_exact_iff hbuffer hstream h

/-- Two bytes that are no terminators: the read takes both of them, however they arrive. -/
theorem safeRecv_exact_iff_two_bytes :
    (safeRecv [0, 0] 2).Always (fun read left =>
      (read.1 = some 2 ∧ read.2 = [0x41, 0x42] ∧ left = [0x43]) ↔ 0 ∉ [(0x41 : Byte)])
      [0x41, 0x42, 0x43] :=
  @safeRecv_exact_iff [0, 0] [0x41, 0x42, 0x43] 2 (by decide) (by decide)

/-- Asked for two bytes of which the first is a zero byte, `safe_recv` returns 1, and whether it takes the
    second one from the stream depends on how they arrive. -/
theorem safeRecv_stops_early :
    (safeRecv [0, 0] 2).Reads [0, 0x41] (some 1, [0, 0]) [0x41] ∧
      (safeRecv [0, 0] 2).Reads [0, 0x41] (some 1, [0, 0x41]) [] :=
  ⟨@Process.Reads.recv _ 2 1 _ _ _ _ (by decide) (by decide) (by decide) (.done _ _),
    @Process.Reads.recv _ 2 2 _ _ _ _ (by decide) (by decide) (by decide) (.done _ _)⟩

/-! ### A transfer -/

/-- A client that has just been given a command, and a thread that waits for its request. -/
def requestNet (memory : Memory) (client : Client) (server : Server) (command : Command) : FtpNet :=
  ⟨client.command memory command, .done (.next server), [], []⟩

/-- Both streams are empty, the client is at its prompt and the thread waits for a request, and the files
    of the two sides are as given. -/
structure Delivered (here there : FileSystem) (c : FtpNet) : Prop where
  toRight : c.toRight = []
  toLeft : c.toLeft = []
  client : ∃ client, c.left.result = some client ∧ client.ended = false ∧ client.files = here
  server : ∃ server, c.right = .done (.next server) ∧ server.files = there

section

variable (memory : Memory) (shell : Shell)

/-- The move leaves the connection up, and a call of `recv` that returns less than it asked for returns no
    zero byte. -/
abbrev ZeroFreeRead (c : FtpNet) (side : Side Command) : Prop :=
  Net.Undisturbed ZeroFree (clientAct memory) (serverAct memory shell) c side

variable {memory shell} {client client' : Client} {server server' : Server} {name content : List Byte}
  {history : List (FtpNet × Side Command)} {c : FtpNet}

/-- An exchange that leads in lockstep to rest comes to rest there, whatever the interleaving and the
    pieces are. -/
theorem exchange_of_zeroFree {command : Command} {last : Option Call} (pending : Bool)
    (hinfo : client'.info ≠ none) (hended : client'.ended = false)
    (hleads : Leads memory shell (requestNet memory client server command)
      ⟨createSocket client', .done (.next server'), [], []⟩ last)
    (hlast : pending = false → last ≠ some .recv)
    (hrun : (ftpSystem memory shell (requestNet memory client server command)).Run history c)
    (hok : ∀ entry ∈ history, ZeroFreeRead memory shell entry.1 entry.2)
    (htyped : Net.typed history = []) :
    (∀ client'', c.left.result = some client'' → client''.ended = false →
      pending = false ∨ ServerIdle memory shell c → Delivered client'.files server'.files c) ∧
    (ftpSystem memory shell (requestNet memory client server command)).Inevitable
      (fun c side => ZeroFreeRead memory shell c side ∧ Net.Unattended side)
      (Delivered client'.files server'.files) c := by
  have hrest : AtRest memory ⟨.connected, false, client'.files, server'.files, server'.currentDir, pending⟩
      ⟨createSocket client', .done (.next server'), [], []⟩ :=
    atRest_connected rfl hended hinfo rfl rfl rfl
  have hdelivered : ∀ c, c = (⟨createSocket client', .done (.next server'), [], []⟩ : FtpNet) →
      Delivered client'.files server'.files c := by
    rintro c rfl
    obtain ⟨client'', hresult, -, hended'', hfiles, -⟩ := result_createSocket client'
    exact ⟨rfl, rfl, ⟨client'', hresult, hended''.trans hended, hfiles⟩, server', rfl, rfl⟩
  have hsettled : Net.Settled (clientAct memory) (serverAct memory shell) _ := hrest.settled
  have hanswers := Session.single_answers pending hsettled rfl
  have hclient := steady_client memory
  have hserver := steady_server memory shell
  obtain ⟨weight, hleads⟩ := hleads
  have hstart : (Session.single _ pending).OnTrack (clientAct memory) (serverAct memory shell)
      (Process.Steady ZeroFree) (Process.Steady ZeroFree) ()
      (requestNet memory client server command) weight :=
    ⟨steady_command memory client command, .done _, _, last, rfl, hleads, hlast⟩
  obtain ⟨weight', htrack⟩ := Session.onTrack_of_run hanswers hclient hserver server_never_inputs hstart
    hrun hok (by rw [htyped]; trivial)
  constructor
  · intro client'' hresult hrunning hdone
    refine hdelivered c (htrack.rest_of_prompt hanswers (client_input hresult hrunning) ?_)
    exact hdone.imp id fun hidle => not_whole_of_idle hidle
  · exact (htrack.inevitable hanswers hclient hserver server_never_inputs (fun c side h => h)
      (fun c side h => h.undisturbed) _).mono hdelivered

/-- A transfer does not depend on how its bytes are cut into pieces, as long as no piece that is shorter
    than asked for holds a zero byte: `get` and `put` copy the file and leave nothing behind. The client
    does not wait for the end of an upload, so after `put` its bytes may still be on the way at the prompt;
    once the thread has read them, the same holds. -/
theorem transfer_of_zeroFree (hname : name.length ≤ 2035) (hname' : name ≠ [])
    (hinfo : client.info ≠ none) (hrunning : client.ended = false)
    (hsize : content.length < 2 ^ 32 - 12)
    (hok : ∀ entry ∈ history, ZeroFreeRead memory shell entry.1 entry.2)
    (htyped : Net.typed history = []) :
    (server.files.Readable (server.filePath (cutName name)) content →
      client.files.Writable name content →
      (ftpSystem memory shell (requestNet memory client server (.get name))).Run history c →
        (∀ client', c.left.result = some client' → client'.ended = false →
          client'.files.lookup name = .regular content ∧
            Delivered (client.files.store name content) server.files c) ∧
        (ftpSystem memory shell (requestNet memory client server (.get name))).Inevitable
          (fun c side => ZeroFreeRead memory shell c side ∧ Net.Unattended side)
          (Delivered (client.files.store name content) server.files) c) ∧
    (client.files.Readable name content →
      server.files.Writable (server.filePath (cutName name)) content →
      (ftpSystem memory shell (requestNet memory client server (.put name))).Run history c →
        (∀ client', c.left.result = some client' → client'.ended = false → ServerIdle memory shell c →
          (∃ server', c.right = .done (.next server') ∧
            server'.files.lookup (server.filePath (cutName name)) = .regular content) ∧
          Delivered client.files (server.files.store (server.filePath (cutName name)) content) c) ∧
        (ftpSystem memory shell (requestNet memory client server (.put name))).Inevitable
          (fun c side => ZeroFreeRead memory shell c side ∧ Net.Unattended side)
          (Delivered client.files (server.files.store (server.filePath (cutName name)) content)) c) := by
  constructor
  · intro hreadable hwritable hrun
    obtain ⟨client₁, hcontinues, hfiles, hleads⟩ :=
      command_get memory shell hname hname' hinfo hsize hreadable hwritable
    obtain ⟨hprompt, hinevitable⟩ := exchange_of_zeroFree false (hcontinues.info.symm ▸ hinfo)
      (hcontinues.ended.trans hrunning) hleads (fun _ => by simp) hrun hok htyped
    rw [hfiles] at hprompt hinevitable
    refine ⟨fun client' hresult hended => ?_, hinevitable⟩
    have hdelivered := hprompt client' hresult hended (.inl rfl)
    obtain ⟨client₂, hresult₂, -, hfiles₂⟩ := hdelivered.client
    obtain rfl : client₂ = client' := Option.some.inj (hresult₂.symm.trans hresult)
    exact ⟨by rw [hfiles₂, FileSystem.lookup_store], hdelivered⟩
  · intro hreadable hwritable hrun
    obtain ⟨client₁, last, hcontinues, hfiles, hleads⟩ :=
      command_put memory shell hname hname' hinfo hsize hreadable hwritable
    obtain ⟨hprompt, hinevitable⟩ := exchange_of_zeroFree true (hcontinues.info.symm ▸ hinfo)
      (hcontinues.ended.trans hrunning) hleads (by simp) hrun hok htyped
    rw [hfiles] at hprompt hinevitable
    refine ⟨fun client' hresult hended hidle => ?_, hinevitable⟩
    have hdelivered := hprompt client' hresult hended (.inr hidle)
    obtain ⟨server', hright, hfiles'⟩ := hdelivered.server
    exact ⟨⟨server', hright, by rw [hfiles', FileSystem.lookup_store]⟩, hdelivered⟩

end

/-- A client that is connected. -/
def connectedClient (files : FileSystem) : Client :=
  { sampleClient files with info := some [0x73], sock := .connected ⟨[127, 0, 0, 1], 82⟩ }

/-- A download in pieces that end where its reads end. -/
theorem transfer_of_zeroFree_download :
    ∃ history c client', c.left.result = some client' ∧
      (ftpSystem sampleMemory sampleShell (requestNet sampleMemory (connectedClient (sampleFiles [] []))
        (sampleServer (sampleFiles [0x2f, 0x61] [0, 0x41])) (.get [0x61]))).Run history c ∧
      client'.files.lookup [0x61] = .regular [0, 0x41] ∧ c.toLeft = [] := by
  have hreadable : (sampleServer (sampleFiles [0x2f, 0x61] [0, 0x41])).files.Readable
      ((sampleServer (sampleFiles [0x2f, 0x61] [0, 0x41])).filePath (cutName [0x61])) [0, 0x41] :=
    sampleFiles_readable [0x2f, 0x61] [0, 0x41]
  have hwritable : (connectedClient (sampleFiles [] [])).files.Writable [0x61] [0, 0x41] :=
    sampleFiles_writable (by simp) (by simp)
  have hinfo : (connectedClient (sampleFiles [] [])).info ≠ none := by simp [connectedClient]
  obtain ⟨client₁, hcontinues, -, weight, hleads⟩ := command_get sampleMemory sampleShell
    (by simp : [(0x61 : Byte)].length ≤ 2035) (by simp) hinfo (by simp) hreadable hwritable
  obtain ⟨client', hresult, -, hended, -, -⟩ := result_createSocket client₁
  obtain ⟨history, hrun, hfull, htyped⟩ := hleads.exists_run (.start rfl)
  have h := ((transfer_of_zeroFree (by simp) (by simp) hinfo rfl (by simp)
    (fun entry hmem => (hfull entry hmem).undisturbed) htyped).1 hreadable hwritable hrun).1
    client' hresult (hended.trans hcontinues.ended)
  exact ⟨history, _, client', hresult, hrun, h.1, h.2.toLeft⟩

/-- The first of two bytes arrives alone and is a zero byte. -/
theorem step_recv_zero {start : FtpNet} (f : Option ℕ × List Byte → Process Client) (q : Process Served) :
    (ftpSystem sampleMemory sampleShell start).step ⟨safeRecv [0, 0] 2 >>= f, q, [], [0, 0x41]⟩
      (.left (.recv 1)) ⟨f (some 1, [0, 0]), q, [], [0x41]⟩ :=
  rfl

/-- A download in which one `recv` returns a zero byte alone: the copy differs, and a byte of the file is
    left behind. And an upload in which every `recv` returns all it asked for: when the client is back at
    its prompt, the file is still on the way. -/
theorem transfer_leaves_bytes :
    (∃ history c client', (ftpSystem sampleMemory sampleShell (requestNet sampleMemory
        (connectedClient (sampleFiles [] [])) (sampleServer (sampleFiles [0x2f, 0x61] [0, 0x41]))
        (.get [0x61]))).Run history c ∧
      (∀ entry ∈ history, Net.Undisturbed (fun _ => True) (clientAct sampleMemory)
        (serverAct sampleMemory sampleShell) entry.1 entry.2) ∧
      Net.typed history = [] ∧ c.left.result = some client' ∧ client'.ended = false ∧
      client'.files.lookup [0x61] = .regular [0, 0] ∧ c.toLeft = [0x41]) ∧
    (∃ history c client', (ftpSystem sampleMemory sampleShell (requestNet sampleMemory
        (connectedClient (sampleFiles [0x61] [0x41])) (sampleServer (sampleFiles [] []))
        (.put [0x61]))).Run history c ∧
      (∀ entry ∈ history, FullRead sampleMemory sampleShell entry.1 entry.2) ∧
      Net.typed history = [] ∧ c.left.result = some client' ∧ client'.ended = false ∧
      c.toRight ≠ []) := by
  constructor
  · have hreadable : (sampleServer (sampleFiles [0x2f, 0x61] [0, 0x41])).files.Readable
        ((sampleServer (sampleFiles [0x2f, 0x61] [0, 0x41])).filePath (cutName [0x61])) [0, 0x41] :=
      sampleFiles_readable [0x2f, 0x61] [0, 0x41]
    have hinfo : (connectedClient (sampleFiles [] [])).info ≠ none := by simp [connectedClient]
    obtain ⟨weight, hleads⟩ := command_get_content sampleMemory sampleShell
      (by simp : [(0x61 : Byte)].length ≤ 2035) (by simp) hinfo (by simp) hreadable
    obtain ⟨history, hrun, hfull, htyped⟩ := hleads.exists_run (.start rfl)
    have hwritable : (connectedClient (sampleFiles [] [])).files.Writable [0x61] [0, 0] :=
      sampleFiles_writable (by simp) (by simp)
    obtain ⟨client₁, hcontinues, hfiles, hsave⟩ := saveFile_of_writable hwritable
    obtain ⟨client', hresult, -, hended, hfiles', -⟩ := result_createSocket client₁
    refine ⟨_, _, client', hrun.step (step_recv_zero _ _), ?_, ?_, ?_, hended.trans hcontinues.ended, ?_, rfl⟩
    · intro entry hmem
      rcases List.mem_append.mp hmem with hmem | hmem
      · exact (hfull entry hmem).undisturbed
      · rw [List.mem_singleton] at hmem
        subst hmem
        exact fun _ _ _ _ => trivial
    · simpa [Net.typed] using htyped
    · change (saveFile (connectedClient (sampleFiles [] [])) [0x61] [0, 0] >>= createSocket).result = _
      rw [hsave]
      exact hresult
    · rw [hfiles', hfiles, FileSystem.lookup_store]
  · have hreadable : (connectedClient (sampleFiles [0x61] [0x41])).files.Readable [0x61] [0x41] :=
      sampleFiles_readable [0x61] [0x41]
    have hinfo : (connectedClient (sampleFiles [0x61] [0x41])).info ≠ none := by simp [connectedClient]
    obtain ⟨weight, hleads⟩ := @command_put_sent sampleMemory sampleShell _
      (sampleServer (sampleFiles [] [])) [0x61] (by simp) (by simp) hinfo _ hreadable
    obtain ⟨history, hrun, hfull, htyped⟩ := hleads.exists_run (.start rfl)
    obtain ⟨client', hresult, -, hended, -, -⟩ :=
      result_createSocket ((connectedClient (sampleFiles [0x61] [0x41])).printNamed "File uploaded:" [0x61])
    exact ⟨history, _, client', hrun, hfull, htyped, hresult, hended, by simp [packet_bytes_ne_nil]⟩

end NetworkLabs.Ftp
