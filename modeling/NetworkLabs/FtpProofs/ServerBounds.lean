/-
Module: NetworkLabs.FtpProofs.ServerBounds
Layer: FtpProofs
Purpose: The stores of `client_handler` into its arrays of `MAX_BUFFER_SIZE` bytes. A name goes into `dir`
  or `file_name`, and two of the four branches put a zero byte at `length - 1` behind it, the length being
  what the peer's header says; the output of a command goes into `list_content` or `sha_content`, with a
  zero byte behind it. Each branch is its stores and then the rest, and the stores are all inside of the
  arrays exactly for some headers and some outputs.
Trusted boundary: none
Main exports: storeName, StoresInBounds, BranchesStore, FitsArrays, storesInBounds_iff
-/
import NetworkLabs.FtpProofs.BrokenSession

namespace NetworkLabs.Ftp

open Lib

/-! ### The stores of a branch -/

/-- The stores into the array of a name: what `safe_recv` puts there, and the zero byte at `length - 1` in
    the branches that put one. -/
def storeName (array : List Byte) (length : ℕ) (terminated : Bool) :
    Process (Option ℕ × List Byte) := do
  let (received, name) ← safeRecv array length
  if received = none ∨ terminated = false then
    return (received, name)
  let name ← terminateAt name length
  return (received, name)

section

variable {α : Type} {array : List Byte} {length : ℕ} {ended : α}

/-- A branch that ends the name with a zero byte. -/
theorem storeName_terminated (rest : List Byte → Process α) :
    (do
      let (received, name) ← safeRecv array length
      if received = none then
        return ended
      let name ← terminateAt name length
      rest name) =
      storeName array length true >>= fun (received, name) =>
        if received = none then pure ended else rest name := by
  rw [storeName, Process.bind_assoc]
  refine congrArg _ (funext fun read => ?_)
  obtain ⟨received, name⟩ := read
  cases received with
  | none => rfl
  | some value =>
      simp only [reduceCtorEq, if_false, or_self, Bool.true_eq_false]
      rw [Process.bind_assoc]
      rfl

/-- A branch that does not. -/
theorem storeName_unterminated (rest : Option ℕ × List Byte → Process α) :
    (safeRecv array length >>= rest) = storeName array length false >>= rest := by
  rw [storeName, Process.bind_assoc]
  refine congrArg _ (funext fun read => ?_)
  simp

end

section

variable (server : Server)

/-- The branch `CD` is the stores into `dir` and a rest that has no array of its own. -/
theorem serveCd_stores : ∃ rest : Option ℕ × List Byte → Process Served,
    ∀ memory request, serveCd memory server request =
      storeName (memory.buffer server.turn "dir") (request.lengthMinus 12) true >>= rest :=
  ⟨_, fun _ _ => storeName_terminated _⟩

/-- The branch `GET` is the stores into `file_name` and a rest that has no array of its own. -/
theorem serveGet_stores : ∃ rest : Option ℕ × List Byte → Process Served,
    ∀ memory request, serveGet memory server request =
      storeName (memory.buffer server.turn "file_name") (request.lengthMinus 12) false >>= rest :=
  ⟨_, fun _ _ => storeName_unterminated _⟩

/-- The branch `PUT` is the stores into `file_name` and a rest that receives the file. -/
theorem servePut_stores (memory : Memory) : ∃ rest : Option ℕ × List Byte → Process Served,
    ∀ request, servePut memory server request =
      storeName (memory.buffer server.turn "file_name") (request.lengthMinus 12) true >>= rest :=
  ⟨_, fun _ => storeName_terminated _⟩

/-- The branch `SHA` is the stores into `file_name` and a rest that sends a sum. -/
theorem serveSha_stores (memory : Memory) (shell : Shell) :
    ∃ rest : Option ℕ × List Byte → Process Served,
      ∀ request, serveSha memory shell server request =
        storeName (memory.buffer server.turn "file_name") (request.lengthMinus 12) false >>= rest :=
  ⟨_, fun _ => storeName_unterminated _⟩

/-- The branch `LIST`, once the command has been run, is the stores into `list_content` and a rest that
    sends them. -/
theorem serveList_stores : ∃ rest : ℕ × List Byte → Process Served,
    ∀ memory shell output, shell server.files (lsCommand ++ server.currentDir) = some output →
      serveList memory shell server =
        readOutput (memory.buffer server.turn "list_content") output >>= rest := by
  apply Exists.intro
  intro memory shell output hshell
  rw [serveList, hshell]

/-- Sending a sum is the stores into `sha_content` and a rest that sends them. -/
theorem sendSum_stores : ∃ rest : ℕ × List Byte → Process Served,
    ∀ memory shell filePath output, shell server.files (sha256sumCommand ++ filePath) = some output →
      sendSum memory shell server filePath =
        readOutput (memory.buffer server.turn "sha_content") output >>= rest := by
  apply Exists.intro
  intro memory shell filePath output hshell
  rw [sendSum, hshell]

end

/-! ### When the stores stay inside of the arrays -/

section

variable {buffer buffer' : List Byte} {ret rest length : ℕ} {value : Option ℕ} {outcomes : List Outcome}

/-- A call of `recv` never returns more than it was asked for. -/
theorem neverAborts_recvLoop : (recvLoop 0 rest ret rest buffer).NeverAborts := by
  induction rest using Nat.strongRecOn generalizing ret buffer with
  | _ rest ih =>
      by_cases hrest : rest = 0
      · rw [hrest, recvLoop_zero]
        exact Process.neverAborts_done _
      · rw [recvLoop_eq hrest]
        apply Process.NeverAborts.recv
        intro result hpossible
        cases result with
        | data piece =>
            have hpos : 0 < piece.length := List.length_pos_iff.mpr hpossible.1
            simp only [if_neg hpossible.1]
            cases piece.findIdx? (· = 0) with
            | some i => exact Process.neverAborts_done _
            | none => exact ih _ (by omega)
        | closed => exact Process.neverAborts_done _
        | failed => exact Process.neverAborts_done _

theorem length_of_recvLoop_ends (hbuffer : ret + rest ≤ buffer.length)
    (h : (recvLoop 0 rest ret rest buffer).Ends outcomes (value, buffer')) :
    buffer'.length = buffer.length := by
  induction rest using Nat.strongRecOn generalizing ret buffer outcomes with
  | _ rest ih =>
      by_cases hrest : rest = 0
      · rw [hrest, recvLoop_zero] at h
        cases h
        rfl
      · rw [recvLoop_eq hrest] at h
        cases h with
        | @recv _ _ result _ _ hpossible hnext =>
            cases result with
            | data piece =>
                have hpos : 0 < piece.length := List.length_pos_iff.mpr hpossible.1
                have hlen : (overwrite buffer ret piece).length = buffer.length :=
                  length_overwrite (by have := hpossible.2; omega)
                simp only [if_neg hpossible.1] at hnext
                cases hfind : piece.findIdx? (· = 0) with
                | some i =>
                    simp only [hfind] at hnext
                    cases hnext
                    exact hlen
                | none =>
                    simp only [hfind] at hnext
                    rw [← hlen]
                    exact ih _ (by omega) (by have := hpossible.2; omega) hnext
            | closed =>
                cases hnext
                rfl
            | failed =>
                cases hnext
                rfl

end

section

variable {array : List Byte}

theorem neverAborts_memcpy {bytes : List Byte} {pos : ℕ} :
    (memcpy array pos bytes).NeverAborts ↔ pos + bytes.length ≤ array.length := by
  rw [memcpy]
  split
  · next h => exact iff_of_true (Process.neverAborts_done _) h
  · next h => exact iff_of_false Process.not_neverAborts_abort h

/-- The stores of a name stay inside of its array if and only if the length fits, and there is a last
    byte if one is to be set. -/
theorem neverAborts_storeName {length : ℕ} {terminated : Bool} (harray : array.length = maxBufferSize) :
    (storeName array length terminated).NeverAborts ↔
      length ≤ maxBufferSize ∧ (terminated = true → 0 < length) := by
  rw [storeName, safeRecv, safeRecvUntil, harray]
  by_cases hfits : length ≤ maxBufferSize
  · rw [if_pos hfits]
    constructor
    · intro h
      refine ⟨hfits, fun hterminated => ?_⟩
      by_contra hzero
      obtain rfl : length = 0 := by omega
      rw [recvLoop_zero, hterminated] at h
      exact Process.not_neverAborts_abort h
    · rintro ⟨-, hpos⟩
      apply neverAborts_recvLoop.bind
      rintro outcomes ⟨received, name⟩ hends
      have hname : name.length = array.length := length_of_recvLoop_ends (by omega) hends
      dsimp only
      split
      · exact Process.neverAborts_done _
      · next hgo =>
          have hterminated : terminated = true := by
            by_contra hnot
            exact hgo (.inr (Bool.eq_false_iff.mpr hnot))
          have hlen := hpos hterminated
          rw [terminateAt, if_neg (Nat.ne_of_gt hlen)]
          refine Process.NeverAborts.bind (neverAborts_memcpy.mpr ?_)
            fun _ _ _ => Process.neverAborts_done _
          simp only [List.length_singleton]
          omega
  · rw [if_neg hfits]
    exact iff_of_false Process.not_neverAborts_abort fun h => hfits h.1

/-- An output that fills the array leaves no room for the zero byte. -/
theorem readOutput_full {output : List Byte} (harray : array.length = maxBufferSize)
    (hfull : maxBufferSize ≤ output.length) : readOutput array output = .abort := by
  have hlen : (output.take maxBufferSize).length = maxBufferSize := by
    rw [List.length_take]
    omega
  have hfirst : 0 + (output.take maxBufferSize).length ≤ array.length := by omega
  have hsecond : ¬maxBufferSize + [(0 : Byte)].length ≤
      (overwrite array 0 (output.take maxBufferSize)).length := by
    rw [length_overwrite hfirst, harray, List.length_singleton]
    omega
  rw [readOutput, memcpy, if_pos hfirst]
  change (memcpy _ (min output.length maxBufferSize) _ >>= _) = _
  rw [Nat.min_eq_right hfull, memcpy, if_neg hsecond]
  rfl

/-- The stores of an output stay inside of the array if and only if they leave room for the zero byte. -/
theorem neverAborts_readOutput {output : List Byte} (harray : array.length = maxBufferSize) :
    (readOutput array output).NeverAborts ↔ output.length < maxBufferSize := by
  constructor
  · intro h
    by_contra hfull
    rw [readOutput_full harray (Nat.le_of_not_lt hfull)] at h
    exact Process.not_neverAborts_abort h
  · intro hfits
    obtain ⟨array', hread, -⟩ := readOutput_eq harray hfits
    rw [hread]
    exact Process.neverAborts_done _

end

/-! ### The turn of a request -/

/-- The header makes the thread take the branch of a request. -/
def DataPacket.IsRequest (request : DataPacket) (type : Byte) : Prop :=
  request.protocol = Ftp.protocol ∧ request.type = type

/-- The stores that the turn of a request makes into `list_content`, `dir`, `file_name` and `sha_content`
    all stay inside of these arrays, whatever the peer sends behind the header; `output` is what the
    command of the branch prints. -/
def StoresInBounds (memory : Memory) (server : Server) (request : DataPacket)
    (output : List Byte) : Prop :=
  (request.IsRequest listRequest.type →
    (readOutput (memory.buffer server.turn "list_content") output).NeverAborts) ∧
  (request.IsRequest cdRequest.type →
    (storeName (memory.buffer server.turn "dir") (request.lengthMinus 12) true).NeverAborts) ∧
  (request.IsRequest getRequest.type →
    (storeName (memory.buffer server.turn "file_name") (request.lengthMinus 12) false).NeverAborts) ∧
  (request.IsRequest putRequest.type →
    (storeName (memory.buffer server.turn "file_name") (request.lengthMinus 12) true).NeverAborts) ∧
  (request.IsRequest shaRequest.type →
    (storeName (memory.buffer server.turn "file_name") (request.lengthMinus 12) false).NeverAborts ∧
      (readOutput (memory.buffer server.turn "sha_content") output).NeverAborts)

/-- Each branch of the turn is the stores that the condition above speaks of, and then a rest that knows of
    the header and of the output only what the stores give it; any other header leads to no store. -/
structure BranchesStore (memory : Memory) (shell : Shell) (server : Server) : Prop where
  list : ∃ rest, ∀ request output, request.IsRequest listRequest.type →
    shell server.files (lsCommand ++ server.currentDir) = some output →
      serveType memory shell server request =
        readOutput (memory.buffer server.turn "list_content") output >>= rest
  cd : ∃ rest, ∀ request, request.IsRequest cdRequest.type → serveType memory shell server request =
    storeName (memory.buffer server.turn "dir") (request.lengthMinus 12) true >>= rest
  get : ∃ rest, ∀ request, request.IsRequest getRequest.type → serveType memory shell server request =
    storeName (memory.buffer server.turn "file_name") (request.lengthMinus 12) false >>= rest
  put : ∃ rest, ∀ request, request.IsRequest putRequest.type → serveType memory shell server request =
    storeName (memory.buffer server.turn "file_name") (request.lengthMinus 12) true >>= rest
  sha : ∃ rest, ∀ request, request.IsRequest shaRequest.type → serveType memory shell server request =
    storeName (memory.buffer server.turn "file_name") (request.lengthMinus 12) false >>= rest
  sum : ∃ rest, ∀ filePath output, shell server.files (sha256sumCommand ++ filePath) = some output →
    sendSum memory shell server filePath =
      readOutput (memory.buffer server.turn "sha_content") output >>= rest
  other : ∀ request : DataPacket, (∀ type ∈ listRequest.type :: nameRequests, ¬request.IsRequest type) →
    serveType memory shell server request = serveQuit server ∨
      serveType memory shell server request = pure (.ended server)

/-- The header's `m_length` leaves a name of at most `MAX_BUFFER_SIZE` bytes, which is not empty if a zero
    byte is put at its end; and the output of a command is shorter than its array. -/
structure FitsArrays (request : DataPacket) (output : List Byte) : Prop where
  output : request.IsRequest listRequest.type ∨ request.IsRequest shaRequest.type →
    output.length < maxBufferSize
  terminated : request.IsRequest cdRequest.type ∨ request.IsRequest putRequest.type →
    packetSize < request.length ∧ request.length ≤ packetSize + maxBufferSize
  unterminated : request.IsRequest getRequest.type ∨ request.IsRequest shaRequest.type →
    packetSize ≤ request.length ∧ request.length ≤ packetSize + maxBufferSize

/-- The length field of a header is a `uint32_t`. -/
theorem length_ofBytes_lt (buffer : List Byte) : (DataPacket.ofBytes buffer).length < 2 ^ 32 := by
  have hlt := ofBigEndian_lt ((buffer.drop 8).take 4)
  have hle : 256 ^ ((buffer.drop 8).take 4).length ≤ 256 ^ 4 :=
    Nat.pow_le_pow_right (by omega) (List.length_take_le 4 _)
  exact Nat.lt_of_lt_of_le hlt hle

/-- `m_length - 12` fits an array if and only if it does not wrap below zero and is not too large. -/
theorem lengthMinus_le {request : DataPacket} (h : request.length < 2 ^ 32) :
    request.lengthMinus 12 ≤ maxBufferSize ↔
      packetSize ≤ request.length ∧ request.length ≤ packetSize + maxBufferSize := by
  simp only [DataPacket.lengthMinus, packetSize, maxBufferSize]
  omega

theorem lengthMinus_pos {request : DataPacket} (h : request.length < 2 ^ 32) :
    request.lengthMinus 12 ≤ maxBufferSize ∧ 0 < request.lengthMinus 12 ↔
      packetSize < request.length ∧ request.length ≤ packetSize + maxBufferSize := by
  simp only [DataPacket.lengthMinus, packetSize, maxBufferSize]
  omega

/-- The branches of the request loop, by their stores. -/
theorem branchesStore (memory : Memory) (shell : Shell) (server : Server) :
    BranchesStore memory shell server where
  list := by
    obtain ⟨rest, hrest⟩ := serveList_stores server
    refine ⟨rest, fun request output h hshell => ?_⟩
    rw [serveType, if_neg (not_not_intro h.1), if_pos h.2]
    exact hrest memory shell output hshell
  cd := by
    obtain ⟨rest, hrest⟩ := serveCd_stores server
    refine ⟨rest, fun request h => ?_⟩
    rw [serveType, if_neg (not_not_intro h.1), h.2, if_neg (by decide), if_pos rfl]
    exact hrest memory request
  get := by
    obtain ⟨rest, hrest⟩ := serveGet_stores server
    refine ⟨rest, fun request h => ?_⟩
    rw [serveType, if_neg (not_not_intro h.1), h.2, if_neg (by decide), if_neg (by decide), if_pos rfl]
    exact hrest memory request
  put := by
    obtain ⟨rest, hrest⟩ := servePut_stores server memory
    refine ⟨rest, fun request h => ?_⟩
    rw [serveType, if_neg (not_not_intro h.1), h.2, if_neg (by decide), if_neg (by decide),
      if_neg (by decide), if_pos rfl]
    exact hrest request
  sha := by
    obtain ⟨rest, hrest⟩ := serveSha_stores server memory shell
    refine ⟨rest, fun request h => ?_⟩
    rw [serveType, if_neg (not_not_intro h.1), h.2, if_neg (by decide), if_neg (by decide),
      if_neg (by decide), if_neg (by decide), if_pos rfl]
    exact hrest request
  sum := by
    obtain ⟨rest, hrest⟩ := sendSum_stores server
    exact ⟨rest, fun filePath output hshell => hrest memory shell filePath output hshell⟩
  other request h := by
    rw [serveType]
    by_cases hprotocol : request.protocol = protocol
    · have htype : ∀ type ∈ listRequest.type :: nameRequests, request.type ≠ type :=
        fun type hmem heq => h type hmem ⟨hprotocol, heq⟩
      simp only [nameRequests, List.forall_mem_cons] at htype
      obtain ⟨hlist, hcd, hget, hput, hsha, -⟩ := htype
      rw [if_neg (not_not_intro hprotocol), if_neg hlist, if_neg hcd, if_neg hget, if_neg hput, if_neg hsha]
      split
      · exact .inl rfl
      · exact .inr rfl
    · exact .inr (if_pos hprotocol)

/-- For every header, every output and every content of the arrays: the branches of the turn are their
    stores and a rest, and these stores stay inside of the arrays if and only if the header's length and the
    output's size allow it. -/
theorem storesInBounds_iff (memory : Memory) (shell : Shell) (server : Server)
    (header output : List Byte) :
    BranchesStore memory shell server ∧
      (StoresInBounds memory server (DataPacket.ofBytes header) output ↔
        FitsArrays (DataPacket.ofBytes header) output) := by
  refine ⟨branchesStore _ _ _, ?_⟩
  have hlen := length_ofBytes_lt header
  generalize DataPacket.ofBytes header = request at hlen
  have hread : ∀ name, (readOutput (memory.buffer server.turn name) output).NeverAborts ↔
      output.length < maxBufferSize := fun name => neverAborts_readOutput (memory.length_buffer _ name)
  have hterminated : ∀ name,
      (storeName (memory.buffer server.turn name) (request.lengthMinus 12) true).NeverAborts ↔
        packetSize < request.length ∧ request.length ≤ packetSize + maxBufferSize := by
    intro name
    rw [neverAborts_storeName (memory.length_buffer _ name), ← lengthMinus_pos hlen]
    simp
  have hunterminated : ∀ name,
      (storeName (memory.buffer server.turn name) (request.lengthMinus 12) false).NeverAborts ↔
        packetSize ≤ request.length ∧ request.length ≤ packetSize + maxBufferSize := by
    intro name
    rw [neverAborts_storeName (memory.length_buffer _ name), ← lengthMinus_le hlen]
    simp
  constructor
  · rintro ⟨hlist, hcd, hget, hput, hsha⟩
    simp only [hread, hterminated, hunterminated] at hlist hcd hget hput hsha
    exact ⟨fun htype => htype.elim hlist fun hsha' => (hsha hsha').2, fun htype => htype.elim hcd hput,
      fun htype => htype.elim hget fun hsha' => (hsha hsha').1⟩
  · rintro ⟨houtput, hterm, hunterm⟩
    simp only [StoresInBounds, hread, hterminated, hunterminated]
    exact ⟨fun h => houtput (.inl h), fun h => hterm (.inl h), fun h => hunterm (.inl h),
      fun h => hterm (.inr h), fun h => ⟨hunterm (.inr h), houtput (.inr h)⟩⟩

section

variable {memory : Memory} {shell : Shell} {server : Server} {request : DataPacket}

/-- A name of no bytes has no last byte. -/
theorem serveCd_empty (h : request.lengthMinus 12 = 0) : serveCd memory server request = .abort := by
  rw [serveCd]
  simp only [h]
  rw [safeRecv, safeRecvUntil, if_pos (Nat.zero_le _), recvLoop_zero]
  rfl

/-- A name that is longer than its array. -/
theorem serveGet_long (h : maxBufferSize < request.lengthMinus 12) :
    serveGet memory server request = .abort := by
  rw [serveGet, safeRecv, safeRecvUntil, if_neg (by rw [Memory.length_buffer]; omega)]
  rfl

/-- A listing that fills its array. -/
theorem serveList_full {output : List Byte}
    (hshell : shell server.files (lsCommand ++ server.currentDir) = some output)
    (hfull : maxBufferSize ≤ output.length) : serveList memory shell server = .abort := by
  rw [serveList, hshell]
  change (readOutput _ output >>= _) = _
  rw [readOutput_full (memory.length_buffer _ _) hfull]
  rfl

end

/-- Three turns with a store outside of an array: `cd` with `m_length` 12, `get` with `m_length` 2061, and
    `ls` in a directory whose listing has 2048 bytes. -/
theorem serveType_out_of_bounds :
    (¬StoresInBounds sampleMemory (sampleServer (sampleFiles [] []))
        (DataPacket.ofBytes (packet cdRequest.type 0 12).bytes) [] ∧
      serveCd sampleMemory (sampleServer (sampleFiles [] [])) (packet cdRequest.type 0 12) = .abort) ∧
    (¬StoresInBounds sampleMemory (sampleServer (sampleFiles [] []))
        (DataPacket.ofBytes (packet getRequest.type 0 2061).bytes) [] ∧
      serveGet sampleMemory (sampleServer (sampleFiles [] [])) (packet getRequest.type 0 2061) = .abort) ∧
    (¬StoresInBounds sampleMemory (sampleServer (sampleFiles [] []))
        (DataPacket.ofBytes listRequest.bytes) (List.replicate 2048 0x61) ∧
      serveList sampleMemory (fun _ _ => some (List.replicate 2048 0x61))
        (sampleServer (sampleFiles [] [])) = .abort) := by
  have hread : ∀ type status n, DataPacket.ofBytes (packet type status n).bytes = packet type status n := by
    intro type status n
    simpa using ofBytes_packet type status n []
  refine ⟨⟨fun h => ?_, serveCd_empty rfl⟩, ⟨fun h => ?_, serveGet_long (by decide)⟩,
    fun h => ?_, serveList_full rfl (by rw [List.length_replicate]; decide)⟩
  · rw [hread] at h
    have hfits := (neverAborts_storeName (Memory.length_buffer _ _ _)).mp (h.2.1 ⟨rfl, rfl⟩)
    exact absurd (hfits.2 rfl) (by decide)
  · rw [hread] at h
    have hfits := (neverAborts_storeName (Memory.length_buffer _ _ _)).mp (h.2.2.1 ⟨rfl, rfl⟩)
    exact absurd hfits.1 (by decide)
  · rw [show listRequest.bytes = (packet 0xA3 0 12).bytes from rfl, hread] at h
    have hfits := (neverAborts_readOutput (Memory.length_buffer _ _ _)).mp (h.1 ⟨rfl, rfl⟩)
    rw [List.length_replicate] at hfits
    exact absurd hfits (by decide)

end NetworkLabs.Ftp
