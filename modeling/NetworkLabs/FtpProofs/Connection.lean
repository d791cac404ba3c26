/-
Module: NetworkLabs.FtpProofs.Connection
Layer: FtpProofs
Purpose: The two variables in which the client remembers its connection, `info` and `sock`, over whole runs
  of its command loop and every outcome of its calls. They say the same at every prompt exactly as long as
  no step of the run is one of four: `open` of a server that accepts, with arguments that do not spell its
  address; `open` while a connection is open; `ls` whose request cannot be sent; and `quit` whose reply is
  lost or of a wrong type. As long as they say the same, a command is sent only where there is a connection.
Trusted boundary: none
Main exports: Client.Consistent, Client.Keeps, ensures_runCommand, session_consistent_iff
-/
import NetworkLabs.FtpProofs.Framing
import NetworkLabs.FtpProofs.Address

namespace NetworkLabs.Ftp

open Lib

/-- `info` names the server that `sock` is connected to. -/
def Client.Linked (client : Client) : Prop :=
  ∃ server address, client.info = some server ∧ client.sock = .connected address ∧ Names server address

/-- Either `info` names the server that `sock` is connected to, or `info` names none and `sock` has no
    connection. -/
def Client.Consistent (client : Client) : Prop :=
  client.Linked ∨ client.info = none ∧ ∀ address, client.sock ≠ .connected address

/-- The server has accepted a connection: its reply has come, and it has the status 1. -/
def Accepted (memory : Memory) (turn : ℕ) (outcomes : List Outcome) : Prop :=
  recvFailed outcomes = false ∧ received outcomes ≠ [] ∧
    (DataPacket.ofBytes (overwrite (memory.buffer turn "open_reply") 0 (received outcomes))).status = 1

/-- The steps that keep `info` and `sock` in agreement. Where `open` is typed on a connection, and where
    `ls` cannot send its request, the question that is denied is the one for the new socket, and the client
    ends. -/
def Client.Keeps (memory : Memory) (client : Client) : Command → List Outcome → Prop
  | .open serverIp serverPort, outcomes =>
      serverIp = [] ∨ serverPort = [] ∨
        if client.info = none then
          SpellsAddress serverIp serverPort ∨ ¬Accepted memory client.turn outcomes
        else denied outcomes = true
  | .ls, outcomes => client.info = none ∨ sendFailed outcomes = false ∨ denied outcomes = true
  | .quit, outcomes =>
      client.info = none ∨ recvFailed outcomes = false ∧ (received outcomes ≠ [] →
        (DataPacket.ofBytes (overwrite (memory.buffer client.turn "quit_reply") 0
          (received outcomes))).type = quitReply.type)
  | _, _ => True

/-- What a command that is sent is sent on: `open` on the connection that it has just made, and every other
    command on the connection to the server that `info` names. -/
def Client.OnConnection (client : Client) : Command → List Outcome → Prop
  | .open _ _, outcomes => client.sock = .unconnected ∧ outcomes.head? = some (.answered true)
  | _, _ => client.Linked

/-- A command that has lost the agreement of `info` and `sock`; if it has closed the socket, the top of the
    loop can still end the client. -/
structure Client.Astray (memory : Memory) (client : Client) (command : Command) (outcomes : List Outcome)
    (client' : Client) : Prop where
  inconsistent : ¬client'.Consistent
  notKept : ¬client.Keeps memory command outcomes
  running : client'.ended = client.ended
  denied : client'.sock = .closed → client.Keeps memory command (outcomes ++ [.answered false])

/-- The law of one command from a prompt at which `info` and `sock` agree. -/
def Client.Lawful (memory : Memory) (client : Client) (command : Command) (outcomes : List Outcome)
    (client' : Client) : Prop :=
  client.Consistent →
    (client'.Consistent ∧ client.Keeps memory command outcomes ∨
      client.Astray memory command outcomes client') ∧
    (sends outcomes = true → client.OnConnection command outcomes)

/-- A client that knows of no connection and has none. -/
structure Client.Detached (client : Client) : Prop where
  info : client.info = none
  sock : client.sock = .closed

theorem Client.Detached.consistent {client : Client} (h : client.Detached) : client.Consistent :=
  .inr ⟨h.info, by simp [h.sock]⟩

theorem Client.Continues.consistent {client client' : Client} (h : client.Continues client') :
    client'.Consistent ↔ client.Consistent := by
  simp only [Client.Consistent, Client.Linked, h.info, h.sock]

/-- A client that has closed its socket and still names a server. -/
theorem Client.not_consistent_of_closed {client : Client} (hinfo : client.info ≠ none)
    (hsock : client.sock = .closed) : ¬client.Consistent := by
  rintro (⟨server, address, -, hconnected, -⟩ | ⟨hnone, -⟩)
  · rw [hsock] at hconnected
    cases hconnected
  · exact hinfo hnone

theorem Client.Consistent.linked {client : Client} (h : client.Consistent) (hinfo : client.info ≠ none) :
    client.Linked :=
  h.resolve_right fun hnone => hinfo hnone.1

theorem Client.Consistent.info_eq_none {client : Client} (h : client.Consistent)
    (hsock : ∀ address, client.sock ≠ .connected address) : client.info = none := by
  rcases h with ⟨server, address, -, hconnected, -⟩ | ⟨hnone, -⟩
  · exact absurd hconnected (hsock address)
  · exact hnone

/-! ### The helper functions under every outcome -/

theorem ensures_sendLoop {ret : ℕ} {rest : List Byte} :
    (sendLoop rest.length ret rest).Ensures fun outcomes sent =>
      recvFailed outcomes = false ∧ denied outcomes = false ∧ received outcomes = [] ∧
        sent = if sendFailed outcomes then none else some (ret + rest.length) := by
  induction hsize : rest.length using Nat.strongRecOn generalizing ret rest with
  | _ size ih =>
      subst hsize
      by_cases hrest : rest = []
      · subst hrest
        exact .done ⟨rfl, rfl, rfl, rfl⟩
      · rw [sendLoop_eq hrest]
        intro outcomes sent hends
        cases hends with
        | @send _ _ result more _ hpossible hnext =>
            cases result with
            | accepted count =>
                obtain ⟨hpos, hle⟩ := hpossible
                simp only [if_neg (Nat.ne_of_gt hpos)] at hnext
                have hlt : (rest.drop count).length < rest.length := by
                  rw [List.length_drop]
                  omega
                obtain ⟨hrecv, hdenied, hread, hsent⟩ := ih _ hlt rfl _ _ hnext
                refine ⟨hrecv, hdenied, hread, ?_⟩
                rw [hsent, List.length_drop, Nat.add_assoc, Nat.add_sub_cancel' hle]
                rfl
            | closed =>
                cases hnext
                exact ⟨rfl, rfl, rfl, rfl⟩
            | failed =>
                cases hnext
                exact ⟨rfl, rfl, rfl, rfl⟩

theorem ensures_safeSend (bytes : List Byte) :
    (safeSend bytes).Ensures fun outcomes sent =>
      recvFailed outcomes = false ∧ denied outcomes = false ∧ received outcomes = [] ∧
        sent = if sendFailed outcomes then none else some bytes.length := by
  intro outcomes sent hends
  obtain ⟨hrecv, hdenied, hread, hsent⟩ := ensures_sendLoop outcomes sent hends
  rw [Nat.zero_add] at hsent
  exact ⟨hrecv, hdenied, hread, hsent⟩

theorem ensures_recvLoop {ret rest : ℕ} {buffer : List Byte} (hbuffer : ret + rest ≤ buffer.length) :
    (recvLoop 0 rest ret rest buffer).Ensures fun outcomes read =>
      sendFailed outcomes = false ∧ (read.1 = none ↔ recvFailed outcomes = true) ∧
        (rest ≠ 0 → recvFailed outcomes = false → received outcomes ≠ []) ∧
        read.2 = overwrite buffer ret (received outcomes) := by
  induction rest using Nat.strongRecOn generalizing ret buffer with
  | _ rest ih =>
      by_cases hrest : rest = 0
      · subst hrest
        rw [recvLoop_zero]
        exact .done ⟨rfl, by simp, by simp, by simp [overwrite]⟩
      · rw [recvLoop_eq hrest]
        intro outcomes read hends
        cases hends with
        | @recv _ _ result more _ hpossible hnext =>
            cases result with
            | data piece =>
                obtain ⟨hne, hle⟩ := hpossible
                have hreceived : received (.received (.data piece) :: more) = piece ++ received more := rfl
                have hpos : piece.length ≠ 0 := by simpa using hne
                rw [hreceived]
                simp only [if_neg hne] at hnext
                cases hfind : piece.findIdx? (· = 0) with
                | some i =>
                    simp only [hfind] at hnext
                    cases hnext
                    exact ⟨rfl, by simp [recvFailed], by simp [hne], by simp⟩
                | none =>
                    simp only [hfind] at hnext
                    obtain ⟨hsend, hvalue, hread, hbuf⟩ := ih (rest - piece.length) (by omega)
                      (by rw [length_overwrite (by omega)]; omega) _ _ hnext
                    refine ⟨hsend, hvalue, by simp [hne], ?_⟩
                    rw [hbuf, overwrite_overwrite (by omega)]
            | closed =>
                cases hnext
                exact ⟨rfl, by simp [recvFailed], by simp [recvFailed], by simp [overwrite, received]⟩
            | failed =>
                cases hnext
                exact ⟨rfl, by simp [recvFailed], by simp [recvFailed], by simp [overwrite, received]⟩

theorem ensures_safeRecv (buffer : List Byte) (len : ℕ) :
    (safeRecv buffer len).Ensures fun outcomes read =>
      sendFailed outcomes = false ∧ (read.1 = none ↔ recvFailed outcomes = true) ∧
        (len ≠ 0 → recvFailed outcomes = false → received outcomes ≠ []) ∧
        read.2 = overwrite buffer 0 (received outcomes) := by
  rw [safeRecv, safeRecvUntil]
  split
  · exact ensures_recvLoop (by omega)
  · exact .abort

/-- A call that is accepted whole. -/
theorem ends_safeSend {bytes : List Byte} (hne : bytes ≠ []) :
    (safeSend bytes).Ends [.sent (.accepted bytes.length)] (some bytes.length) := by
  have hpos : 0 < bytes.length := List.length_pos_iff.mpr hne
  rw [safeSend, sendLoop_eq hne]
  refine .send ⟨hpos, Nat.le_refl _⟩ ?_
  simp only [if_neg (Nat.ne_of_gt hpos), List.drop_length, sendLoop_nil, Nat.zero_add, Process.pure_eq]
  exact .done _

/-- A call that returns all it asked for. -/
theorem ends_safeRecv {buffer piece : List Byte} (hne : piece ≠ []) (hfits : piece.length ≤ buffer.length) :
    ∃ n, (safeRecv buffer piece.length).Ends [.received (.data piece)]
      (some n, piece ++ buffer.drop piece.length) := by
  have hlen : piece.length ≠ 0 := Nat.ne_of_gt (List.length_pos_iff.mpr hne)
  rw [safeRecv, safeRecvUntil, if_pos hfits, recvLoop_eq hlen]
  cases hfind : piece.findIdx? (· = 0) with
  | some i =>
      refine ⟨0 + i + 1, .recv ⟨hne, Nat.le_refl _⟩ ?_⟩
      simp only [if_neg hne, hfind, overwrite_zero, Process.pure_eq]
      exact .done _
  | none =>
      refine ⟨0 + piece.length, .recv ⟨hne, Nat.le_refl _⟩ ?_⟩
      simp only [if_neg hne, hfind, overwrite_zero, Nat.sub_self, recvLoop_zero, Process.pure_eq]
      exact .done _

/-! ### The commands under every outcome -/

section

variable (memory : Memory) (client : Client)

/-- The client after it has found its server down. -/
def Client.serverDown : Client :=
  { (client.print "Server is down").closeSock with info := none }

theorem ensures_checkServerStatus :
    (checkServerStatus client).Ensures fun outcomes result =>
      outcomes = [.answered true] ∧ result = (true, client) ∨
        outcomes = [.answered false] ∧ result = (false, client.serverDown) := by
  rw [checkServerStatus]
  apply Process.Ensures.check
  rintro (_ | _)
  · exact .done (.inr ⟨rfl, rfl⟩)
  · exact .done (.inl ⟨rfl, rfl⟩)

variable {memory client}

/-- A command that starts with the test of the connection: without one it says so, and otherwise it does
    what is left to do. -/
theorem ensures_connected {f : Bool × Client → Process Client} {P : List Outcome → Client → Prop}
    (hnone : client.info = none → (f (false, client)).Ensures P)
    (hdown : client.info ≠ none →
      (f (false, client.serverDown)).Ensures fun more => P (.answered false :: more))
    (hup : client.info ≠ none → (f (true, client)).Ensures fun more => P (.answered true :: more)) :
    (checkConnection client >>= f).Ensures P := by
  rw [checkConnection]
  by_cases hinfo : client.info = none
  · rw [if_pos hinfo]
    exact hnone hinfo
  · rw [if_neg hinfo]
    refine (ensures_checkServerStatus client).bind ?_
    rintro outcomes result (⟨rfl, rfl⟩ | ⟨rfl, rfl⟩)
    · exact hup hinfo
    · exact hdown hinfo

/-- `cd`, `get`, `put` and `sha256`, whose parts behind the test of the connection touch neither `info`
    nor `sock`. -/
theorem ensures_request {f : Bool × Client → Process Client}
    (hno : ∀ client, f (false, client) = pure (client.print "No connection"))
    (hbody : (f (true, client)).Ensures fun _ client' => client.Continues client') :
    (checkConnection client >>= f).Ensures fun outcomes client' =>
      (client.Continues client' ∨ client'.Detached) ∧
        (sends outcomes = true → client.info ≠ none) := by
  apply ensures_connected
  · intro _
    rw [hno]
    exact .done ⟨.inl ⟨rfl, rfl, rfl⟩, by simp⟩
  · intro _
    rw [hno]
    exact .done ⟨.inr ⟨rfl, rfl⟩, by simp⟩
  · exact fun hinfo => hbody.mono fun _ _ h => ⟨.inl h, fun _ => hinfo⟩

theorem continues_print (line : String) : client.Continues (client.print line) := ⟨rfl, rfl, rfl⟩

theorem ensures_changeDirectory (dir : Path) :
    (changeDirectory memory client dir).Ensures fun outcomes client' =>
      (client.Continues client' ∨ client'.Detached) ∧ (sends outcomes = true → client.info ≠ none) := by
  rw [changeDirectory]
  apply ensures_request (fun client => rfl)
  refine .early (continues_print _) (.early (continues_print _) ?_)
  refine .bind_result fun array => ?_
  refine .bind_result fun sent => .early (continues_print _) ?_
  refine .bind_result ?_
  rintro ⟨received, reply⟩
  refine .early (continues_print _) ?_
  refine .early (continues_print _) (.early (continues_print _) (.early (continues_print _) ?_))
  exact .done ⟨rfl, rfl, rfl⟩

theorem ensures_saveFile (fileName : Path) (fileContent : List Byte) :
    (saveFile client fileName fileContent).Ensures fun _ client' => client.Continues client' := by
  rw [saveFile]
  split
  · exact .abort
  · next found _ =>
      have hcover : ∀ c : Client, c = (if found then (client.print "Downloading file").printNamed
          "File already exists, Will Cover" fileName else client.print "Downloading file") →
          client.Continues c := by
        rintro c rfl
        cases found <;> exact ⟨rfl, rfl, rfl⟩
      dsimp only
      split
      · exact .done ⟨(hcover _ rfl).info, (hcover _ rfl).sock, (hcover _ rfl).ended⟩
      · refine .early ?_ (.done ?_)
        · exact ⟨(hcover _ rfl).info, (hcover _ rfl).sock, (hcover _ rfl).ended⟩
        · exact ⟨(hcover _ rfl).info, (hcover _ rfl).sock, (hcover _ rfl).ended⟩

theorem ensures_downloadFiles (fileName : Path) :
    (downloadFiles memory client fileName).Ensures fun outcomes client' =>
      (client.Continues client' ∨ client'.Detached) ∧ (sends outcomes = true → client.info ≠ none) := by
  rw [downloadFiles]
  apply ensures_request (fun client => rfl)
  refine .early (continues_print _) (.bind_result fun array => ?_)
  refine .bind_result fun sent => .early (continues_print _) ?_
  refine .bind_result ?_
  rintro ⟨received, reply⟩
  refine .early (continues_print _) ?_
  refine .early ⟨rfl, rfl, rfl⟩ ?_
  refine .bind_result ?_
  rintro ⟨received, head⟩
  refine .early (continues_print _) ?_
  refine .bind_result ?_
  rintro ⟨received, content⟩
  refine .early (continues_print _) ?_
  exact ensures_saveFile _ _

theorem ensures_sendFile (fileName : Path) :
    (sendFile client fileName).Ensures fun _ client' => client.Continues client' := by
  rw [sendFile]
  split
  · exact .abort
  · refine .early (continues_print _) ?_
    split
    · exact .done (continues_print _)
    · refine .bind_result fun sent => .early (continues_print _) ?_
      exact .bind_result fun sent => .early (continues_print _) (.done ⟨rfl, rfl, rfl⟩)

theorem ensures_uploadFiles (fileName : Path) :
    (uploadFiles memory client fileName).Ensures fun outcomes client' =>
      (client.Continues client' ∨ client'.Detached) ∧ (sends outcomes = true → client.info ≠ none) := by
  rw [uploadFiles]
  apply ensures_request (fun client => rfl)
  refine .early (continues_print _) ?_
  split
  · exact .abort
  · exact .done (continues_print _)
  · refine .bind_result fun array => ?_
    refine .bind_result fun sent => .early (continues_print _) ?_
    refine .bind_result ?_
    rintro ⟨received, reply⟩
    refine .early (continues_print _) ?_
    exact .early (continues_print _) (ensures_sendFile _)

theorem ensures_sha256 (fileName : Path) :
    (sha256 memory client fileName).Ensures fun outcomes client' =>
      (client.Continues client' ∨ client'.Detached) ∧ (sends outcomes = true → client.info ≠ none) := by
  rw [sha256]
  apply ensures_request (fun client => rfl)
  refine .early (continues_print _) (.bind_result fun array => ?_)
  refine .bind_result fun sent => .early (continues_print _) ?_
  refine .bind_result ?_
  rintro ⟨received, reply⟩
  refine .early (continues_print _) ?_
  refine .early (continues_print _) ?_
  refine .bind_result ?_
  rintro ⟨received, head⟩
  refine .early (continues_print _) ?_
  refine .bind_result ?_
  rintro ⟨received, value⟩
  exact .early (continues_print _) (.done ⟨rfl, rfl, rfl⟩)

/-- The commands that keep `info` and `sock` in agreement under every outcome. -/
theorem lawful_of_follows {command : Command} {outcomes : List Outcome} {client' : Client}
    (hkeeps : client.Keeps memory command outcomes)
    (hon : client.OnConnection command outcomes ↔ client.Linked)
    (h : (client.Continues client' ∨ client'.Detached) ∧
      (sends outcomes = true → client.info ≠ none)) :
    client.Lawful memory command outcomes client' := by
  obtain ⟨hfollows, hsends⟩ := h
  intro hconsistent
  constructor
  · rcases hfollows with hcontinues | hdetached
    · exact .inl ⟨hcontinues.consistent.mpr hconsistent, hkeeps⟩
    · exact .inl ⟨hdetached.consistent, hkeeps⟩
  · exact fun h => hon.mpr (hconsistent.linked (hsends h))

theorem ensures_listFiles :
    (listFiles memory client).Ensures (client.Lawful memory .ls) := by
  rw [listFiles]
  apply ensures_connected
  · intro hinfo
    refine .done fun hconsistent => ⟨?_, by simp⟩
    exact .inl ⟨(continues_print _).consistent.mpr hconsistent, .inl hinfo⟩
  · intro _
    refine .done fun _ => ⟨?_, by simp⟩
    exact .inl ⟨Client.Detached.consistent ⟨rfl, rfl⟩, .inr (.inl (by simp))⟩
  · intro hinfo
    refine .ite (.done fun hconsistent => ⟨?_, by simp⟩) ?_
    · exact .inl ⟨(continues_print _).consistent.mpr hconsistent, .inr (.inl (by simp))⟩
    refine (ensures_safeSend _).bind ?_
    rintro outcomes sent ⟨-, hdenied, -, rfl⟩
    cases hsend : sendFailed outcomes with
    | true =>
        refine .guard ?_ fun h => absurd h (by simp)
        refine fun _ hconsistent => ⟨.inr ⟨?_, ?_, rfl, fun _ => ?_⟩, fun _ => hconsistent.linked hinfo⟩
        · exact Client.not_consistent_of_closed hinfo rfl
        · simp [Client.Keeps, hinfo, hsend, hdenied]
        · exact .inr (.inr (by simp))
    | false =>
        refine .guard (fun h => (h rfl).elim) fun _ => ?_
        refine (ensures_safeRecv _ _).bind ?_
        rintro more ⟨value, reply⟩ ⟨hmore, -⟩
        have hlaw : ∀ client', client.Continues client' →
            client.Lawful memory .ls (.answered true :: (outcomes ++ (more ++ []))) client' := by
          intro client' hcontinues hconsistent
          refine ⟨.inl ⟨hcontinues.consistent.mpr hconsistent, .inr (.inl ?_)⟩,
            fun _ => hconsistent.linked hinfo⟩
          simp [hsend, hmore]
        refine .guard (fun _ => hlaw _ (continues_print _)) fun _ => ?_
        exact .ite (.done (hlaw _ ⟨rfl, rfl, rfl⟩)) .abort

/-- `close_connection` leaves the socket open if it has sent the request and does not get the reply. -/
theorem ensures_closeConnection :
    (closeConnection memory client).Ensures fun outcomes result =>
      result.1 ≠ 0 ∧ result.2.ended = client.ended ∧
        (result.2.sock = .closed ∧ client.Keeps memory .quit outcomes ∨
          result.2.sock = client.sock ∧ (client.info ≠ none → ¬client.Keeps memory .quit outcomes)) := by
  rw [closeConnection]
  refine (ensures_checkServerStatus client).bind ?_
  rintro first result (⟨rfl, rfl⟩ | ⟨rfl, rfl⟩)
  · refine .guard (fun h => absurd h (by simp)) fun _ => ?_
    refine (ensures_safeSend _).bind ?_
    rintro outcomes sent ⟨hrecv, -, hread, rfl⟩
    cases hsend : sendFailed outcomes with
    | true =>
        refine .guard ?_ fun h => absurd h (by simp)
        exact fun _ => ⟨by simp, rfl, .inl ⟨rfl, .inr (by simp [hrecv, hread])⟩⟩
    | false =>
        refine .guard (fun h => (h rfl).elim) fun _ => ?_
        refine (ensures_safeRecv _ _).bind ?_
        rintro more ⟨value, reply⟩ ⟨-, hvalue, hsome, hreply⟩
        obtain rfl : reply = _ := hreply
        have hreceived : received ([.answered true] ++ (outcomes ++ (more ++ []))) = received more := by
          simp [hread]
        have hfailed : recvFailed ([.answered true] ++ (outcomes ++ (more ++ []))) = recvFailed more := by
          simp [hrecv]
        refine .guard ?_ fun hne => .guard ?_ fun htype => .done ?_
        · intro hnone
          refine ⟨by simp, rfl, .inr ⟨rfl, ?_⟩⟩
          rintro hinfo (h | ⟨h, -⟩)
          · exact hinfo h
          · rw [hfailed, hvalue.mp hnone] at h
            cases h
        · intro htype
          refine ⟨by simp, rfl, .inr ⟨rfl, ?_⟩⟩
          rintro hinfo (h | ⟨h, htype'⟩)
          · exact hinfo h
          · rw [hfailed] at h
            rw [hreceived] at htype'
            exact htype (htype' (hsome (by decide) h))
        · refine ⟨by simp, rfl, .inl ⟨rfl, .inr ⟨?_, fun _ => ?_⟩⟩⟩
          · rw [hfailed]
            cases hcase : recvFailed more with
            | true => exact absurd (hvalue.mpr hcase) hne
            | false => rfl
          · rw [hreceived]
            exact not_ne_iff.mp htype
  · refine .guard ?_ fun h => absurd h (by simp)
    exact fun _ => ⟨by simp, rfl, .inl ⟨rfl, .inr (by simp)⟩⟩

theorem ensures_quitCommand :
    (quitCommand memory client).Ensures (client.Lawful memory .quit) := by
  rw [quitCommand]
  refine .guard ?_ fun hinfo => ?_
  · intro hinfo _
    exact ⟨.inl ⟨Client.Detached.consistent ⟨hinfo, rfl⟩, .inl hinfo⟩, by simp⟩
  refine ensures_closeConnection.bind ?_
  rintro outcomes ⟨value, client'⟩ ⟨hvalue, hended, hclient⟩
  refine .guard (fun _ hconsistent => ?_) fun h => absurd hvalue h
  rw [List.append_nil]
  refine ⟨?_, fun _ => hconsistent.linked hinfo⟩
  rcases hclient with ⟨hsock, hkeeps⟩ | ⟨hsock, hkeeps⟩
  · exact .inl ⟨Client.Detached.consistent ⟨rfl, hsock⟩, hkeeps⟩
  · obtain ⟨server, address, -, hconnected, -⟩ := hconsistent.linked hinfo
    have hsock' : client'.sock = .connected address := hsock.trans hconnected
    refine .inr ⟨?_, hkeeps hinfo, hended, fun hclosed => ?_⟩
    · -- the socket is still connected, and no server is named
      rintro (⟨server, address, hnamed, -⟩ | ⟨-, hnot⟩)
      · cases hnamed
      · exact hnot address hsock'
    · rw [show client'.sock = .closed from hclosed] at hsock'
      cases hsock'

/-- `open_connection` succeeds if the server accepts the connection, and closes the socket otherwise. -/
theorem ensures_openConnection :
    (openConnection memory client).Ensures fun outcomes result =>
      result.1 = 1 ∧ client.Continues result.2 ∧ Accepted memory client.turn outcomes ∨
        result.1 ≠ 1 ∧ result.2.sock = .closed ∧ ¬Accepted memory client.turn outcomes := by
  rw [openConnection]
  refine (ensures_safeSend _).bind ?_
  rintro outcomes sent ⟨hrecv, -, hread, rfl⟩
  cases hsend : sendFailed outcomes with
  | true =>
      refine .guard (fun _ => .inr ⟨by simp, rfl, ?_⟩) fun h => absurd h (by simp)
      exact fun h => h.2.1 (by simp [hread])
  | false =>
      refine .guard (fun h => (h rfl).elim) fun _ => ?_
      refine (ensures_safeRecv _ _).bind ?_
      rintro more ⟨flag, reply⟩ ⟨-, hflag, hsome, hreply⟩
      obtain rfl : reply = _ := hreply
      have hreceived : received (outcomes ++ (more ++ [])) = received more := by simp [hread]
      have hfailed : recvFailed (outcomes ++ (more ++ [])) = recvFailed more := by simp [hrecv]
      refine .guard (fun hnone => .inr ⟨by simp, rfl, ?_⟩) fun hne => .guard ?_ fun hstatus => .done ?_
      · rintro ⟨h, -⟩
        rw [hfailed, hflag.mp hnone] at h
        cases h
      · refine fun hstatus => .inr ⟨by simp, rfl, ?_⟩
        rintro ⟨-, -, h⟩
        rw [hreceived] at h
        exact hstatus h
      · have hread' : recvFailed more = false := by
          cases hcase : recvFailed more with
          | true => exact absurd (hflag.mpr hcase) hne
          | false => rfl
        refine .inl ⟨rfl, continues_print _, hfailed.trans hread', ?_, ?_⟩
        · rw [hreceived]
          exact hsome (by decide) hread'
        · rw [hreceived]
          exact not_ne_iff.mp hstatus

section

variable {serverIp serverPort : List Byte} {outcomes : List Outcome} {client' : Client}

/-- What `open` keeps when no server is named. -/
theorem keeps_open_iff (hargs : ¬(serverIp = [] ∨ serverPort = []))
    (hinfo : client.info = none) :
    client.Keeps memory (.open serverIp serverPort) outcomes ↔
      SpellsAddress serverIp serverPort ∨ ¬Accepted memory client.turn outcomes := by
  rw [not_or] at hargs
  simp only [Client.Keeps, hargs.1, hargs.2, false_or, if_pos hinfo]

/-- And when one is. -/
theorem keeps_open_named_iff (hargs : ¬(serverIp = [] ∨ serverPort = []))
    (hinfo : client.info ≠ none) :
    client.Keeps memory (.open serverIp serverPort) outcomes ↔ denied outcomes = true := by
  rw [not_or] at hargs
  simp only [Client.Keeps, hargs.1, hargs.2, false_or, if_neg hinfo]

/-- `open` while no server is named, if the server does not accept the connection. -/
theorem consistent_of_refused (hargs : ¬(serverIp = [] ∨ serverPort = []))
    (hinfo : client.info = none) (hnot : ¬Accepted memory client.turn outcomes)
    (hdetached : client'.Detached) :
    client'.Consistent ∧ client.Keeps memory (.open serverIp serverPort) outcomes :=
  ⟨hdetached.consistent, (keeps_open_iff hargs hinfo).mpr (.inr hnot)⟩

/-- `open` on a connection that `info` names: `connect` fails, and the socket is closed. -/
theorem astray_of_named (hargs : ¬(serverIp = [] ∨ serverPort = []))
    (hinfo : client.info ≠ none) (hinfo' : client'.info = client.info)
    (hsock : client'.sock = .closed) (hended : client'.ended = client.ended) :
    client.Astray memory (.open serverIp serverPort) [] client' where
  inconsistent := Client.not_consistent_of_closed (hinfo' ▸ hinfo) hsock
  notKept h := by cases (keeps_open_named_iff hargs hinfo).mp h
  running := hended
  denied _ := (keeps_open_named_iff hargs hinfo).mpr rfl

/-- `open` while no server is named, if the server accepts the connection: the prompt names the server if
    the arguments spell its address, and another one otherwise. -/
theorem kept_or_astray_of_accepted {port : ℤ} (hargs : ¬(serverIp = [] ∨ serverPort = []))
    (hstoi : stoi serverPort = some port) (hinfo : client.info = none)
    (haccepted : Accepted memory client.turn outcomes)
    (hinfo' : client'.info = some (serverName serverIp serverPort))
    (hsock : client'.sock = .connected (serverAddr memory client serverIp port))
    (hended : client'.ended = client.ended) :
    client'.Consistent ∧ client.Keeps memory (.open serverIp serverPort) outcomes ∨
      client.Astray memory (.open serverIp serverPort) outcomes client' := by
  have hnames := @names_serverAddr_iff memory client serverIp _ _ hstoi
  by_cases hspells : SpellsAddress serverIp serverPort
  · exact .inl ⟨.inl ⟨_, _, hinfo', hsock, hnames.mpr hspells⟩,
      (keeps_open_iff hargs hinfo).mpr (.inl hspells)⟩
  · refine .inr ⟨?_, fun h => ?_, hended, fun hclosed => ?_⟩
    · rintro (⟨server, address, hserver, haddress, h⟩ | ⟨hnone, -⟩)
      · obtain rfl : serverName serverIp serverPort = server := Option.some.inj (hinfo'.symm.trans hserver)
        obtain rfl : serverAddr memory client serverIp port = address :=
          Socket.connected.inj (hsock.symm.trans haddress)
        exact hspells (hnames.mp h)
      · cases hinfo'.symm.trans hnone
    · exact ((keeps_open_iff hargs hinfo).mp h).elim hspells fun hnot => hnot haccepted
    · cases hsock.symm.trans hclosed

end

/-- `open`: on a socket that is not connected it ends with a new connection or without any; on a connected
    one it loses the connection and still names it. -/
theorem ensures_openCommand (serverIp serverPort : List Byte) :
    (openCommand memory client serverIp serverPort).Ensures
      (client.Lawful memory (.open serverIp serverPort)) := by
  rw [openCommand]
  refine .guard ?_ fun hargs => ?_
  · intro hargs hconsistent
    refine ⟨.inl ⟨(continues_print _).consistent.mpr hconsistent, ?_⟩, by simp⟩
    exact hargs.imp id .inl
  split
  · exact .abort
  next port hstoi =>
  cases hsock : client.sock with
  | connected address =>
      refine .bind (P := fun outcomes connected => outcomes = [] ∧ connected = false)
        (.done ⟨rfl, rfl⟩) ?_
      rintro outcomes connected ⟨rfl, rfl⟩
      refine .guard (fun _ hconsistent => ⟨.inr ?_, by simp⟩) fun h => absurd h (by simp)
      have hinfo : client.info ≠ none := by
        rcases hconsistent with ⟨server, -, hserver, -⟩ | ⟨-, hnot⟩
        · simp [hserver]
        · exact absurd hsock (hnot address)
      exact astray_of_named hargs hinfo rfl rfl rfl
  | closed =>
      refine .bind (P := fun outcomes connected => outcomes = [] ∧ connected = false)
        (.done ⟨rfl, rfl⟩) ?_
      rintro outcomes connected ⟨rfl, rfl⟩
      refine .guard (fun _ hconsistent => ⟨.inl ?_, by simp⟩) fun h => absurd h (by simp)
      have hinfo := hconsistent.info_eq_none (by simp [hsock])
      exact consistent_of_refused hargs hinfo (fun h => h.2.1 rfl) ⟨hinfo, rfl⟩
  | unconnected =>
      refine .bind (P := fun outcomes connected => outcomes = [.answered connected])
        (.check fun _ => .done rfl) ?_
      rintro outcomes connected rfl
      refine .guard (fun _ hconsistent => ⟨.inl ?_, by simp⟩) fun hconnected => ?_
      · have hinfo := hconsistent.info_eq_none (by simp [hsock])
        exact consistent_of_refused hargs hinfo (fun h => h.2.1 rfl) ⟨hinfo, rfl⟩
      have htrue : connected = true := by simpa using hconnected
      subst htrue
      refine ensures_openConnection.bind ?_
      rintro more ⟨value, client'⟩ hclient
      have hsame : Accepted memory client.turn ([.answered true] ++ (more ++ [])) ↔
          Accepted memory client.turn more := by simp [Accepted]
      refine .guard (fun hone hconsistent => ⟨?_, fun _ => ⟨hsock, rfl⟩⟩)
        fun hone => .done fun hconsistent => ⟨.inl ?_, fun _ => ⟨hsock, rfl⟩⟩
      · obtain ⟨-, hcontinues, haccepted⟩ := hclient.resolve_right fun h => h.1 hone
        have hinfo := hconsistent.info_eq_none (by simp [hsock])
        exact kept_or_astray_of_accepted hargs hstoi hinfo (hsame.mpr haccepted) rfl hcontinues.sock
          hcontinues.ended
      · obtain ⟨-, hclosed, hnot⟩ := hclient.resolve_left fun h => hone h.1
        have hinfo := hconsistent.info_eq_none (by simp [hsock])
        exact consistent_of_refused hargs hinfo (fun h => hnot (hsame.mp h)) ⟨rfl, hclosed⟩

/-- Every command obeys the law. -/
theorem ensures_runCommand (command : Command) :
    (runCommand memory client command).Ensures (client.Lawful memory command) := by
  have husage : ∀ {command : Command} (line : String), client.Keeps memory command [] →
      client.Lawful memory command [] (client.print line) := by
    intro command line hkeeps hconsistent
    exact ⟨.inl ⟨(continues_print line).consistent.mpr hconsistent, hkeeps⟩, by simp⟩
  cases command with
  | «open» serverIp serverPort => exact ensures_openCommand serverIp serverPort
  | ls => exact ensures_listFiles
  | cd dir =>
      refine .guard (fun _ => husage _ trivial) fun _ => ?_
      exact (ensures_changeDirectory dir).mono fun _ _ => lawful_of_follows trivial Iff.rfl
  | get file =>
      refine .guard (fun _ => husage _ trivial) fun _ => ?_
      exact (ensures_downloadFiles file).mono fun _ _ => lawful_of_follows trivial Iff.rfl
  | put file =>
      refine .guard (fun _ => husage _ trivial) fun _ => ?_
      exact (ensures_uploadFiles file).mono fun _ _ => lawful_of_follows trivial Iff.rfl
  | sha256 file =>
      refine .guard (fun _ => husage _ trivial) fun _ => ?_
      exact (ensures_sha256 file).mono fun _ _ => lawful_of_follows trivial Iff.rfl
  | quit => exact ensures_quitCommand
  | invalid => exact .done (husage _ trivial)

/-- The top of the loop changes neither what `info` names nor what `sock` is connected to. -/
theorem ensures_createSocket :
    (createSocket client).Ensures fun outcomes client' =>
      (client'.Consistent ↔ client.Consistent) ∧
        (outcomes = [] ∧ client'.ended = client.ended ∨
          client.sock = .closed ∧ ∃ yes, outcomes = [.answered yes] ∧ client'.ended = !yes) := by
  rw [createSocket]
  split
  · next h =>
      refine .check fun created => ?_
      have hclosed : ∀ client' : Client, client'.info = client.info →
          (∀ address, client'.sock ≠ .connected address) → (client'.Consistent ↔ client.Consistent) := by
        intro client' hinfo hsock
        simp [Client.Consistent, Client.Linked, hinfo, hsock, h.2]
      cases created with
      | true => exact .done ⟨hclosed _ rfl (by simp), .inr ⟨h.2, true, rfl, h.1⟩⟩
      | false => exact .done ⟨hclosed _ rfl (by simp [Client.print, h.2]), .inr ⟨h.2, false, rfl, rfl⟩⟩
  · exact .done ⟨Iff.rfl, .inl ⟨rfl, rfl⟩⟩

/-- What a command keeps, it keeps whatever the answer at the top of the loop is. -/
theorem Client.Keeps.then_answered {command : Command} {outcomes : List Outcome}
    (h : client.Keeps memory command outcomes) (yes : Bool) :
    client.Keeps memory command (outcomes ++ [.answered yes]) := by
  cases command with
  | «open» serverIp serverPort =>
      refine h.imp id (.imp id fun h => ?_)
      split at h
      · simpa [*, Accepted] using h
      · simp [*]
  | ls => exact h.imp id (.imp (by simp) (by simp +contextual))
  | quit => exact h.imp id fun h => by simpa using h
  | _ => trivial

theorem Client.keeps_answered_true {command : Command} {outcomes : List Outcome} :
    client.Keeps memory command (outcomes ++ [.answered true]) ↔ client.Keeps memory command outcomes := by
  cases command <;> simp [Client.Keeps, Accepted]

theorem Client.OnConnection.append {command : Command} {outcomes : List Outcome}
    (h : client.OnConnection command outcomes) (more : List Outcome) :
    client.OnConnection command (outcomes ++ more) := by
  cases command with
  | «open» serverIp serverPort => exact ⟨h.1, by rw [List.head?_append, h.2, Option.some_or]⟩
  | _ => exact h

/-! ### Whole runs -/

theorem Client.Started.consistent (h : client.Started) : client.Consistent :=
  .inr ⟨h.info, by simp [h.sock]⟩

/-- A step from a prompt at which `info` and `sock` agree leads to another one, or ends the client, exactly
    if it is one that keeps them in agreement. -/
theorem keeps_iff_of_step {start client' : Client} {label : Command × List Outcome}
    (hstep : (promptSystem memory start).step client label client') (hconsistent : client.Consistent) :
    ((client'.ended = false → client'.Consistent) ↔ client.Keeps memory label.1 label.2) ∧
      (sends label.2 = true → client.OnConnection label.1 label.2) := by
  obtain ⟨hrunning, hends⟩ := hstep
  rw [Client.command] at hends
  obtain ⟨outcomes, more, client₁, hlabel, hfirst, hsecond⟩ := Process.ends_bind hends
  obtain ⟨hlaw, hon⟩ := ensures_runCommand label.1 _ _ hfirst hconsistent
  obtain ⟨hsame, hmore⟩ := ensures_createSocket _ _ hsecond
  have hquiet : sends more = false := by
    rcases hmore with ⟨rfl, -⟩ | ⟨-, yes, rfl, -⟩ <;> rfl
  rw [hlabel]
  refine ⟨?_, fun hsends => (hon (by simpa [hquiet] using hsends)).append more⟩
  rcases hmore with ⟨rfl, hended⟩ | ⟨hclosed, yes, rfl, hended⟩
  · rw [List.append_nil]
    rcases hlaw with ⟨hafter, hkeeps⟩ | hastray
    · exact iff_of_true (fun _ => hsame.mpr hafter) hkeeps
    · refine iff_of_false (fun h => hastray.inconsistent (hsame.mp (h ?_))) hastray.notKept
      rw [hended, hastray.running, hrunning]
  · rcases hlaw with ⟨hafter, hkeeps⟩ | hastray
    · exact iff_of_true (fun _ => hsame.mpr hafter) (hkeeps.then_answered yes)
    · cases yes with
      | true =>
          rw [Client.keeps_answered_true]
          exact iff_of_false (fun h => hastray.inconsistent (hsame.mp (h hended))) hastray.notKept
      | false =>
          refine iff_of_true (fun h => ?_) (hastray.denied hclosed)
          rw [hended] at h
          cases h

/-- In every run of the command loop, `info` and `sock` agree at every prompt if and only if every step of
    the run keeps them in agreement; and as long as that is so, a command is sent only on a connection that
    is there. -/
theorem session_consistent_iff {start : Client} (hstarted : start.Started)
    {history : List (Client × Command × List Outcome)}
    (hrun : (promptSystem memory start).Run history client) :
    ((∀ entry ∈ history, entry.1.Consistent) ∧ (client.ended = false → client.Consistent) ↔
      ∀ entry ∈ history, entry.1.Keeps memory entry.2.1 entry.2.2) ∧
    ((∀ entry ∈ history, entry.1.Keeps memory entry.2.1 entry.2.2) →
      ∀ entry ∈ history, sends entry.2.2 = true → entry.1.OnConnection entry.2.1 entry.2.2) := by
  induction hrun with
  | start h =>
      obtain rfl : _ = start := h
      simp [hstarted.consistent]
  | @step history client₁ client₂ label _ hstep ih =>
      obtain ⟨hiff, hon⟩ := ih
      have hlaw := keeps_iff_of_step hstep
      simp only [List.forall_mem_append, List.forall_mem_singleton]
      constructor
      · constructor
        · rintro ⟨⟨hbefore, hlast⟩, hnext⟩
          exact ⟨hiff.mp ⟨hbefore, fun _ => hlast⟩, (hlaw hlast).1.mp hnext⟩
        · rintro ⟨hbefore, hlast⟩
          obtain ⟨hall, hconsistent⟩ := hiff.mpr hbefore
          have hconsistent := hconsistent hstep.1
          exact ⟨⟨hall, hconsistent⟩, (hlaw hconsistent).1.mpr hlast⟩
      · rintro ⟨hbefore, hlast⟩
        exact ⟨hon hbefore, (hlaw ((hiff.mpr hbefore).2 hstep.1)).2⟩

end

/-! ### A session -/

/-- `open 127.0.0.1 82`, answered by a server. -/
def sampleOpen : Command × List Outcome :=
  (.open sampleIp samplePort, [.answered true, .sent (.accepted packetSize),
    .received (.data openConnReply.bytes)])

/-- The client after it. -/
def openedClient (files : FileSystem) : Client :=
  { sampleClient files with
    info := some (serverName sampleIp samplePort)
    sock := .connected ⟨[127, 0, 0, 1], 82⟩
    console := [.text "Connection established"]
    turn := 1 }

/-- The prompt would name another server if the port did not fit 16 bits: the connection is to port 82. -/
example : serverAddr sampleMemory (sampleClient (sampleFiles [] [])) sampleIp 65618 =
    ⟨[127, 0, 0, 1], 82⟩ := by decide

theorem run_sampleOpen (files : FileSystem) :
    (promptSystem sampleMemory (sampleClient files)).Run [(sampleClient files, sampleOpen)]
      (openedClient files) := by
  have hstart : (promptSystem sampleMemory (sampleClient files)).Run [] (sampleClient files) :=
    .start rfl
  refine hstart.step ⟨rfl, ?_⟩
  have hargs : ¬(sampleIp = [] ∨ samplePort = []) := by simp [sampleIp, samplePort]
  have hstoi : stoi samplePort = some 82 := by decide
  have haddress : serverAddr sampleMemory (sampleClient files) sampleIp 82 = ⟨[127, 0, 0, 1], 82⟩ := by
    simp only [serverAddr, show inetPton sampleIp = some [127, 0, 0, 1] by decide]
    rfl
  obtain ⟨n, hread⟩ := @ends_safeRecv (sampleMemory.buffer 0 "open_reply") (packet 0xA2 1 12).bytes
    (packet_bytes_ne_nil _ _ _) (by simp [packetSize, maxBufferSize])
  rw [length_packet_bytes] at hread
  have hsend := ends_safeSend (packet_bytes_ne_nil 0xA1 0 12)
  rw [length_packet_bytes] at hsend
  simp only [sampleOpen, Client.command, runCommand, openCommand, if_neg hargs, hstoi, haddress]
  simp only [sampleClient, openConnection, Process.check_bind, Process.bind_assoc]
  refine .check ?_
  simp only [Process.pure_eq, Process.done_bind, Process.bind_assoc, Bool.not_true,
      Bool.false_eq_true, if_false]
  refine hsend.bind ?_
  simp only [ne_eq, not_true_eq_false, if_false, Process.bind_assoc]
  rw [← List.append_nil [Outcome.received _]]
  refine hread.bind ?_
  simp only [reduceCtorEq, if_false, ofBytes_packet, packet_status, not_true_eq_false,
    Process.done_bind, if_true]
  exact .done _

/-- A session that is opened once keeps `info` and `sock` in agreement. -/
theorem session_consistent_iff_open :
    (∀ entry ∈ [(sampleClient (sampleFiles [] []), sampleOpen)], entry.1.Consistent) ∧
      ((openedClient (sampleFiles [] [])).ended = false →
        (openedClient (sampleFiles [] [])).Consistent) := by
  refine (session_consistent_iff ⟨rfl, rfl, rfl⟩ (run_sampleOpen (sampleFiles [] []))).1.mpr ?_
  have hspells : SpellsAddress sampleIp samplePort := ⟨by decide, 82, by decide, by decide⟩
  simp [sampleOpen, Client.Keeps, sampleClient, hspells]

/-- `open` once more while the connection is open: `connect` fails, the socket is closed and replaced, and
    the prompt still names the server. -/
theorem open_twice_not_consistent :
    ∃ history client, (promptSystem sampleMemory (sampleClient (sampleFiles [] []))).Run history client ∧
      client.ended = false ∧ client.info = some (serverName sampleIp samplePort) ∧
      client.sock = .unconnected ∧ ¬client.Consistent := by
  have hrun := run_sampleOpen (sampleFiles [] [])
  have hstep : (promptSystem sampleMemory (sampleClient (sampleFiles [] []))).step
      (openedClient (sampleFiles [] [])) (.open sampleIp samplePort, [.answered true])
      { openedClient (sampleFiles [] []) with
        sock := .unconnected
        console := [.text "Connection established", .text "Failed to connect to server"]
        turn := 2 } :=
    ⟨rfl, .check (.done _)⟩
  refine ⟨_, _, hrun.step hstep, rfl, rfl, rfl, ?_⟩
  rintro (⟨server, address, -, hsock, -⟩ | ⟨hinfo, -⟩)
  · cases hsock
  · cases hinfo

end NetworkLabs.Ftp
