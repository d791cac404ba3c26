/-
Module: NetworkLabs.FtpProofs.CommandLine
Layer: FtpProofs
Purpose: What the client does with a text on its standard input. Turn by turn it runs the lines of the text;
  and behind the last new line it never stops: what stands there is the line of every further turn. A text
  that spells commands, one on a line, is run as if these commands were typed.
Trusted boundary: none
Main exports: lineAt, terminal_reads, spell, Spelled, readCommand_spell, script_runs
-/
import Mathlib.Data.List.Basic
import NetworkLabs.Ftp.Terminal
import NetworkLabs.FtpProofs.Connection

namespace NetworkLabs.Ftp

open Lib

/-- The line of a turn. Behind the last new line of the text there is only what stands there. -/
def lineAt (text : List Byte) (n : ℕ) : List Byte :=
  (text.splitOn newline).getD n ((text.splitOn newline).getLastD [])

/-- What is left to read after some turns. -/
def StillToRead (text : List Byte) (turns : ℕ) (t : Terminal) : Prop :=
  (t.stdin.good = true ∧ (text.splitOn newline).drop turns = t.stdin.rest.splitOn newline) ∨
    (t.stdin.good = false ∧ (text.splitOn newline).length ≤ turns ∧
      t.input = (text.splitOn newline).getLastD [])

/-- `' '`. -/
def blank : Byte := 0x20

/-- A line that spells a command. No line of this kind spells `invalid`. -/
def spell : Command → List Byte
  | .open serverIp serverPort => openWord ++ blank :: (serverIp ++ blank :: serverPort)
  | .ls => lsWord
  | .cd dir => cdWord ++ blank :: dir
  | .get file => getWord ++ blank :: file
  | .put file => putWord ++ blank :: file
  | .sha256 file => sha256Word ++ blank :: file
  | .quit => quitWord
  | .invalid => []

/-- The names of a command can be typed: there are no blanks in them. -/
def Spelled : Command → Prop
  | .open serverIp serverPort => IsWord isSpace serverIp ∧ IsWord isSpace serverPort
  | .cd name | .get name | .put name | .sha256 name => IsWord isSpace name
  | .ls | .quit => True
  | .invalid => False

/-- Commands, one on a line. -/
def script (commands : List Command) : List Byte :=
  commands.flatMap fun command => spell command ++ [newline]

section

variable {memory : Memory} {start : Client} {text : List Byte} {t t' : Terminal}
  {outcomes : List Outcome} {turns : ℕ}

/-! ### Lines -/

/-- A good stream gives up its first line, or the rest if there is no new line. -/
theorem getline_good (rest input : List Byte) :
    (rest.splitOn newline = [rest] ∧ getline ⟨rest, true⟩ input = (⟨[], false⟩, rest)) ∨
      ∃ line rest', rest.splitOn newline = line :: rest'.splitOn newline ∧
        getline ⟨rest, true⟩ input = (⟨rest', true⟩, line) := by
  have hsplit := @List.takeWhile_append_dropWhile _ (· != newline) rest
  have hline : newline ∉ rest.takeWhile (· != newline) := by
    intro hmem
    have hne := List.mem_takeWhile_imp hmem
    simp at hne
  cases hdrop : rest.dropWhile (· != newline) with
  | nil =>
      left
      rw [hdrop, List.append_nil] at hsplit
      rw [hsplit] at hline
      refine ⟨List.splitOn_eq_singleton hline, ?_⟩
      simp only [getline, hdrop, if_true]
  | cons c rest' =>
      right
      have hc : c = newline := by
        have hhead := List.head?_dropWhile_not (· != newline) rest
        rw [hdrop] at hhead
        simpa using hhead
      rw [hdrop, hc] at hsplit
      refine ⟨rest.takeWhile (· != newline), rest', ?_, ?_⟩
      · conv_lhs => rw [← hsplit]
        exact List.splitOn_append_cons_self_of_not_mem hline rest'
      · simp only [getline, hdrop, if_true]

/-- One turn reads its line. -/
theorem StillToRead.next (h : StillToRead text turns t)
    (hread : (t'.stdin, t'.input) = getline t.stdin t.input) :
    t'.input = lineAt text turns ∧ StillToRead text (turns + 1) t' := by
  obtain ⟨client, ⟨rest, good⟩, input⟩ := t
  have hline : ∀ line lines, (text.splitOn newline).drop turns = line :: lines →
      lineAt text turns = line ∧ (text.splitOn newline).drop (turns + 1) = lines := by
    intro line lines hdrop
    have hget : (text.splitOn newline)[turns]? = some line := by
      rw [← List.head?_drop, hdrop, List.head?_cons]
    refine ⟨?_, ?_⟩
    · rw [lineAt, List.getD_eq_getElem?_getD, hget, Option.getD_some]
    · rw [← List.drop_drop, hdrop, List.drop_one, List.tail_cons]
  rcases h with ⟨hgood, hrest⟩ | ⟨hgood, hlen, hinput⟩
  · obtain rfl : good = true := hgood
    have hrest : (text.splitOn newline).drop turns = rest.splitOn newline := hrest
    rcases getline_good rest input with ⟨hsplit, hget⟩ | ⟨line, rest', hsplit, hget⟩
    · obtain ⟨hstdin, hinput⟩ := Prod.mk.inj (hread.trans hget)
      obtain ⟨hat, hdrop⟩ := hline rest [] (hrest.trans hsplit)
      have hend : (text.splitOn newline).length ≤ turns + 1 := List.drop_eq_nil_iff.mp hdrop
      have hlast : (text.splitOn newline).getLastD [] = rest := by
        rw [← List.take_append_drop turns (text.splitOn newline), hrest, hsplit, List.getLastD_concat]
      refine ⟨hinput.trans hat.symm, .inr ⟨?_, hend, hinput.trans hlast.symm⟩⟩
      rw [hstdin]
    · obtain ⟨hstdin, hinput⟩ := Prod.mk.inj (hread.trans hget)
      obtain ⟨hat, hdrop⟩ := hline line _ (hrest.trans hsplit)
      refine ⟨hinput.trans hat.symm, .inl ⟨?_, ?_⟩⟩
      · rw [hstdin]
      · rw [hstdin, hdrop]
  · obtain rfl : good = false := hgood
    obtain ⟨hstdin, hinput'⟩ := Prod.mk.inj hread
    have hinput : input = (text.splitOn newline).getLastD [] := hinput
    have hat : lineAt text turns = (text.splitOn newline).getLastD [] := by
      rw [lineAt, List.getD_eq_getElem?_getD, List.getElem?_eq_none hlen, Option.getD_none]
    refine ⟨hinput'.trans (hinput.trans hat.symm), .inr ⟨?_, by omega, hinput'.trans hinput⟩⟩
    rw [hstdin]

/-- The socket is there at every prompt. -/
def Client.Ready (client : Client) : Prop := client.ended = false → client.sock ≠ .closed

theorem Client.Started.ready {client : Client} (h : client.Started) : client.Ready := by
  intro _
  rw [h.sock]
  simp

theorem ready_createSocket (client : Client) : (createSocket client).Ensures fun _ => Client.Ready := by
  rw [createSocket]
  split
  · refine .check fun created => ?_
    refine .ite (.done fun _ => ?_) (.done fun hended => ?_)
    · simp
    · cases hended
  · next h =>
      refine .done fun hended hclosed => ?_
      exact h ⟨hended, hclosed⟩

theorem ready_line (client : Client) (input : List Byte) :
    (client.line memory input).Ensures fun _ => Client.Ready := by
  rw [Client.line]
  split
  · exact ready_createSocket client
  · rw [Client.command]
    exact .bind_result ready_createSocket

/-- An empty line does nothing. -/
theorem ends_createSocket_of_ready {client client' : Client} (h : client.Ready)
    (hended : client.ended = false) (hends : (createSocket client).Ends outcomes client') :
    outcomes = [] ∧ client' = { client with turn := client.turn + 1 } := by
  have hopen : ¬(client.ended = false ∧ client.sock = .closed) := fun hboth => h hended hboth.2
  rw [createSocket, if_neg hopen] at hends
  cases hends
  exact ⟨rfl, rfl⟩

/-- What holds after some turns. -/
theorem stillToRead_of_run (hstart : start.Ready) {history : List (Terminal × List Outcome)}
    (hrun : (terminalSystem memory start text).Run history t) :
    StillToRead text history.length t ∧ t.client.Ready := by
  induction hrun with
  | start h =>
      obtain rfl : _ = _ := h
      exact ⟨.inl ⟨rfl, rfl⟩, hstart⟩
  | step hprev hstep ih =>
      obtain ⟨hstill, -⟩ := ih
      obtain ⟨-, hread, hends⟩ := hstep
      rw [List.length_append, List.length_singleton]
      exact ⟨(hstill.next hread).2, ready_line _ _ _ _ hends⟩

/-- Turn by turn the client runs the lines of its input; an empty line does nothing. Behind the last new
    line there is one line for ever: if it is not empty, its command is run again in every further turn, and
    if it is, the client goes round its loop and does nothing, but it does not end. -/
theorem terminal_reads (hstart : start.Started) {history : List (Terminal × List Outcome)}
    (hrun : (terminalSystem memory start text).Run (history ++ [(t, outcomes)]) t') :
    t'.input = lineAt text history.length ∧
      (lineAt text history.length ≠ [] →
        (t.client.command memory (readCommand (lineAt text history.length))).Ends outcomes t'.client) ∧
      (lineAt text history.length = [] →
        outcomes = [] ∧ t'.client = { t.client with turn := t.client.turn + 1 }) := by
  have hready := hstart.ready
  generalize hall : history ++ [(t, outcomes)] = entries at hrun
  cases hrun with
  | start h => simp at hall
  | @step before _ _ _ hprev hstep =>
      obtain ⟨rfl, hlast⟩ := List.append_inj' hall rfl
      obtain ⟨rfl, rfl⟩ := Prod.mk.inj (List.singleton_inj.mp hlast)
      obtain ⟨hstill, hat⟩ := stillToRead_of_run hready hprev
      obtain ⟨hended, hread, hends⟩ := hstep
      obtain ⟨hinput, -⟩ := hstill.next hread
      rw [hinput, Client.line] at hends
      refine ⟨hinput, fun hne => ?_, fun hempty => ?_⟩
      · rwa [if_neg hne] at hends
      · rw [if_pos hempty] at hends
        exact ends_createSocket_of_ready hat hended hends

/-- A text of one letter without a new line: the second turn finds the same line once more. -/
theorem terminal_reads_unterminated : ∃ before outcomes after,
    (terminalSystem sampleMemory (sampleClient (sampleFiles [] [])) [0x78]).Run
      ([(⟨sampleClient (sampleFiles [] []), ⟨[0x78], true⟩, []⟩, [])] ++ [(before, outcomes)]) after ∧
    after.input = [0x78] ∧ after.client.console = [.text "Invalid command", .text "Invalid command"] ∧
    (before.client.command sampleMemory .invalid).Ends outcomes after.client := by
  have hfirst : (terminalSystem sampleMemory (sampleClient (sampleFiles [] [])) [0x78]).Run
      ([] ++ [(⟨sampleClient (sampleFiles [] []), ⟨[0x78], true⟩, []⟩, [])])
      ⟨{ (sampleClient (sampleFiles [] [])).print "Invalid command" with turn := 1 }, ⟨[], false⟩,
        [0x78]⟩ := by
    refine Lts.Run.step (.start rfl) ⟨rfl, rfl, ?_⟩
    exact .done _
  have hsecond := hfirst.step (show (terminalSystem sampleMemory (sampleClient (sampleFiles [] []))
      [0x78]).step _ []
      ⟨{ ((sampleClient (sampleFiles [] [])).print "Invalid command").print "Invalid command" with
        turn := 2 }, ⟨[], false⟩, [0x78]⟩ from ⟨rfl, rfl, .done _⟩)
  have hreads := terminal_reads ⟨rfl, rfl, rfl⟩ hsecond
  exact ⟨_, _, _, hsecond, hreads.1, rfl, hreads.2.1 (by decide)⟩

end

/-! ### Scripts -/

section

variable {command : Command} {commands : List Command}

theorem isWord_keyword {word : List Byte}
    (h : word ∈ [openWord, lsWord, cdWord, getWord, putWord, sha256Word, quitWord]) :
    IsWord isSpace word := by
  have hsolid : word.any isSpace = false ∧ word ≠ [] := by
    simp only [List.mem_cons, List.not_mem_nil, or_false] at h
    rcases h with rfl | rfl | rfl | rfl | rfl | rfl | rfl <;> decide
  exact ⟨hsolid.2, fun c hc => Bool.eq_false_iff.mpr (List.any_eq_false.mp hsolid.1 c hc)⟩

/-- The words of a line with one name. -/
theorem nextWord_named {keyword name : List Byte} (hkeyword : IsWord isSpace keyword)
    (hname : IsWord isSpace name) :
    nextWord isSpace (keyword ++ blank :: name) = (keyword, blank :: name) ∧
      nextWord isSpace (blank :: name) = (name, []) :=
  ⟨@nextWord_append _ isSpace keyword hkeyword [] (by simp) blank rfl name,
    @nextWord_last _ isSpace name hname [blank] (by simp [isSpace, blank])⟩

/-- A line is taken for the command that it spells. -/
theorem readCommand_spell (h : Spelled command) : readCommand (spell command) = command := by
  cases command with
  | «open» serverIp serverPort =>
      obtain ⟨hip, hport⟩ := h
      have hfirst := @nextWord_append _ isSpace openWord (isWord_keyword (by simp)) [] (by simp) blank rfl
        (serverIp ++ blank :: serverPort)
      have hsecond := @nextWord_append _ isSpace serverIp hip [blank] (by simp [isSpace, blank]) blank rfl
        serverPort
      have hthird := @nextWord_last _ isSpace serverPort hport [blank] (by simp [isSpace, blank])
      simp only [List.nil_append, List.cons_append] at hfirst hsecond hthird
      simp only [readCommand, spell, hfirst, hsecond, hthird, if_true]
  | ls => rfl
  | quit => rfl
  | invalid => exact h.elim
  | cd name =>
      obtain ⟨hfirst, hsecond⟩ := nextWord_named (@isWord_keyword cdWord (by simp)) h
      simp only [readCommand, spell, hfirst, hsecond]
      rfl
  | get name =>
      obtain ⟨hfirst, hsecond⟩ := nextWord_named (@isWord_keyword getWord (by simp)) h
      simp only [readCommand, spell, hfirst, hsecond]
      rfl
  | put name =>
      obtain ⟨hfirst, hsecond⟩ := nextWord_named (@isWord_keyword putWord (by simp)) h
      simp only [readCommand, spell, hfirst, hsecond]
      rfl
  | sha256 name =>
      obtain ⟨hfirst, hsecond⟩ := nextWord_named (@isWord_keyword sha256Word (by simp)) h
      simp only [readCommand, spell, hfirst, hsecond]
      rfl

theorem newline_not_mem_of_isWord {word : List Byte} (h : IsWord isSpace word) : newline ∉ word := by
  intro hmem
  have hsolid := h.solid newline hmem
  simp [isSpace, newline] at hsolid

/-- A command is spelled on one line, which is not empty. -/
theorem spell_line (h : Spelled command) : newline ∉ spell command ∧ spell command ≠ [] := by
  have hkeyword : ∀ word ∈ [openWord, lsWord, cdWord, getWord, putWord, sha256Word, quitWord],
      newline ∉ word ∧ word ≠ [] := fun word hmem =>
    ⟨newline_not_mem_of_isWord (isWord_keyword hmem), (isWord_keyword hmem).ne_nil⟩
  have hblank : newline ≠ blank := by decide
  have hnamed : ∀ word ∈ [openWord, lsWord, cdWord, getWord, putWord, sha256Word, quitWord], ∀ name,
      newline ∉ name → newline ∉ word ++ blank :: name ∧ word ++ blank :: name ≠ [] := by
    intro word hmem name hname
    refine ⟨?_, by simp⟩
    simp only [List.mem_append, List.mem_cons, not_or]
    exact ⟨(hkeyword word hmem).1, hblank, hname⟩
  cases command with
  | «open» serverIp serverPort =>
      obtain ⟨hip, hport⟩ := h
      refine hnamed openWord (by simp) _ ?_
      simp only [List.mem_append, List.mem_cons, not_or]
      exact ⟨newline_not_mem_of_isWord hip, hblank, newline_not_mem_of_isWord hport⟩
  | ls => exact hkeyword lsWord (by simp)
  | quit => exact hkeyword quitWord (by simp)
  | invalid => exact h.elim
  | cd name => exact hnamed cdWord (by simp) name (newline_not_mem_of_isWord h)
  | get name => exact hnamed getWord (by simp) name (newline_not_mem_of_isWord h)
  | put name => exact hnamed putWord (by simp) name (newline_not_mem_of_isWord h)
  | sha256 name => exact hnamed sha256Word (by simp) name (newline_not_mem_of_isWord h)

/-- The lines of a script are its commands, and nothing stands behind the last new line. -/
theorem splitOn_script (h : ∀ command ∈ commands, Spelled command) :
    (script commands).splitOn newline = commands.map spell ++ [[]] := by
  induction commands with
  | nil => rfl
  | cons command commands ih =>
      have hline := (spell_line (h command List.mem_cons_self)).1
      have hrest := ih fun command hmem => h command (List.mem_cons_of_mem _ hmem)
      have hscript : script (command :: commands) = spell command ++ newline :: script commands := by
        simp [script]
      rw [hscript, List.splitOn_append_cons_self_of_not_mem hline, hrest, List.map_cons, List.cons_append]

theorem lineAt_script (h : ∀ command ∈ commands, Spelled command) {n : ℕ}
    (hget : commands[n]? = some command) : lineAt (script commands) n = spell command := by
  have hn : n < commands.length := (List.getElem?_eq_some_iff.mp hget).1
  rw [lineAt, splitOn_script h, List.getD_eq_getElem?_getD, List.getElem?_append_left (by simpa using hn),
    List.getElem?_map, hget]
  rfl

/-- A turn on a line that spells a command is that command. -/
theorem line_spell (memory : Memory) (client : Client) (h : Spelled command) :
    client.line memory (spell command) = client.command memory command := by
  rw [Client.line, if_neg (spell_line h).2, readCommand_spell h]

theorem zip_concat {α β : Type} {xs : List α} {ys : List β} {x : α} (h : xs[ys.length]? = some x) (y : β) :
    xs.zip (ys ++ [y]) = xs.zip ys ++ [(x, y)] := by
  induction ys generalizing xs with
  | nil =>
      cases xs with
      | nil => simp at h
      | cons x' xs =>
          obtain rfl : x' = x := by simpa using h
          simp
  | cons y' ys ih =>
      cases xs with
      | nil => simp at h
      | cons x' xs =>
          rw [List.cons_append, List.zip_cons_cons, List.zip_cons_cons, List.cons_append,
            ih (by simpa using h)]

/-- A run on a script is a run in which its commands are typed. -/
theorem typed_of_script {memory : Memory} {start : Client}
    (h : ∀ command ∈ commands, Spelled command) {history : List (Terminal × List Outcome)} {t : Terminal}
    (hrun : (terminalSystem memory start (script commands)).Run history t)
    (hstart : start.Ready) (hlen : history.length ≤ commands.length) :
    ∃ typed, (promptSystem memory start).Run typed t.client ∧
      typed.map Prod.snd = commands.zip (history.map Prod.snd) := by
  induction hrun with
  | start hinit =>
      obtain rfl : _ = _ := hinit
      exact ⟨[], .start rfl, by simp⟩
  | @step history t t' outcomes hprev hstep ih =>
      rw [List.length_append, List.length_singleton] at hlen
      obtain ⟨typed, htyped, hlabels⟩ := ih (by omega)
      obtain ⟨command, hget⟩ : ∃ command, commands[history.length]? = some command :=
        ⟨_, List.getElem?_eq_getElem (by omega)⟩
      obtain ⟨hended, hread, hends⟩ := hstep
      obtain ⟨hinput, -⟩ := (stillToRead_of_run hstart hprev).1.next hread
      rw [hinput, lineAt_script h hget, line_spell memory _ (h command (List.mem_of_getElem? hget))] at hends
      refine ⟨_, htyped.step (show (promptSystem memory start).step _ (command, outcomes) _ from
        ⟨hended, hends⟩), ?_⟩
      rw [List.map_append, List.map_append, hlabels]
      exact (zip_concat (by rwa [List.length_map]) outcomes).symm

/-- A run in which the commands of a script are typed is a run on the script. -/
theorem script_of_typed {memory : Memory} {start : Client}
    (h : ∀ command ∈ commands, Spelled command) {typed : List (Client × Command × List Outcome)}
    {client : Client} (hrun : (promptSystem memory start).Run typed client) (hstart : start.Ready)
    {outcomes : List (List Outcome)} (hlabels : typed.map Prod.snd = commands.zip outcomes)
    (hlen : outcomes.length ≤ commands.length) :
    ∃ history t, (terminalSystem memory start (script commands)).Run history t ∧
      history.map Prod.snd = outcomes ∧ t.client = client := by
  induction hrun generalizing outcomes with
  | start hinit =>
      have hnone : outcomes = [] := by
        have hcount := congrArg List.length hlabels
        rw [List.map_nil, List.length_nil, List.length_zip, Nat.min_eq_right hlen] at hcount
        exact List.length_eq_zero_iff.mp hcount.symm
      exact ⟨[], _, .start rfl, hnone.symm, hinit.symm⟩
  | @step typed client client' label hprev hstep ih =>
      rcases List.eq_nil_or_concat' outcomes with rfl | ⟨before, last, rfl⟩
      · simp at hlabels
      · rw [List.length_append, List.length_singleton] at hlen
        obtain ⟨command, hget⟩ : ∃ command, commands[before.length]? = some command :=
          ⟨_, List.getElem?_eq_getElem (by omega)⟩
        rw [zip_concat hget, List.map_append] at hlabels
        obtain ⟨hbefore, hlast⟩ := List.append_inj' hlabels rfl
        obtain rfl : label = (command, last) := List.singleton_inj.mp hlast
        obtain ⟨history, t, hrun, hhistory, rfl⟩ := ih hbefore (by omega)
        obtain ⟨hended, hends⟩ := hstep
        have hturns : history.length = before.length := by rw [← hhistory, List.length_map]
        obtain ⟨hinput, -⟩ := @StillToRead.next (script commands) t
          ⟨client', (getline t.stdin t.input).1, (getline t.stdin t.input).2⟩ _
          (stillToRead_of_run hstart hrun).1 rfl
        have hline : (getline t.stdin t.input).2 = spell command := by
          rw [← lineAt_script h (hturns ▸ hget)]
          exact hinput
        have hturn : (terminalSystem memory start (script commands)).step t last
            ⟨client', (getline t.stdin t.input).1, (getline t.stdin t.input).2⟩ := by
          refine ⟨hended, rfl, ?_⟩
          rw [hline, line_spell memory _ (h command (List.mem_of_getElem? hget))]
          exact hends
        refine ⟨_, _, hrun.step hturn, ?_, rfl⟩
        rw [List.map_append, hhistory]
        rfl

/-- A script does what its commands do when they are typed one after the other: the client can get by as
    many turns on the script to where it can get by as many of its commands, and with the same outcomes of
    its calls. -/
theorem script_runs {memory : Memory} {start client : Client} (hstart : start.Started)
    (h : ∀ command ∈ commands, Spelled command) {outcomes : List (List Outcome)}
    (hlen : outcomes.length ≤ commands.length) :
    (∃ history t, (terminalSystem memory start (script commands)).Run history t ∧
        history.map Prod.snd = outcomes ∧ t.client = client) ↔
      ∃ typed, (promptSystem memory start).Run typed client ∧
        typed.map Prod.snd = commands.zip outcomes := by
  have hready := hstart.ready
  constructor
  · rintro ⟨history, t, hrun, rfl, rfl⟩
    exact typed_of_script h hrun hready (by simpa using hlen)
  · rintro ⟨typed, hrun, hlabels⟩
    exact script_of_typed h hrun hready hlabels hlen

/-- A script of two lines, the first of which has a name in it. -/
theorem script_runs_cd_quit : ∃ client history t,
    (terminalSystem sampleMemory (sampleClient (sampleFiles [] [])) (script [.cd [0x61], .quit])).Run
        history t ∧
      history.map Prod.snd = [[], []] ∧ t.client = client ∧ client.ended = true := by
  have hfirst : (promptSystem sampleMemory (sampleClient (sampleFiles [] []))).Run
      ([] ++ [(sampleClient (sampleFiles [] []), (.cd [0x61], []))])
      { (sampleClient (sampleFiles [] [])).print "No connection" with turn := 1 } :=
    Lts.Run.step (.start rfl) ⟨rfl, .done _⟩
  have htyped := hfirst.step (show (promptSystem sampleMemory (sampleClient (sampleFiles [] []))).step _
      (.quit, []) { (((sampleClient (sampleFiles [] [])).print "No connection").print
        "Close Client").closeSock with ended := true, turn := 2 } from ⟨rfl, .done _⟩)
  have hspelled : ∀ command ∈ [Command.cd [0x61], .quit], Spelled command := by
    have hname : IsWord isSpace [0x61] := ⟨by simp, by simp [isSpace]⟩
    simp [Spelled, hname]
  obtain ⟨history, t, hrun, houtcomes, hclient⟩ :=
    (@script_runs [.cd [0x61], .quit] sampleMemory _ _ ⟨rfl, rfl, rfl⟩ hspelled [[], []]
      (by decide)).mpr ⟨_, htyped, rfl⟩
  exact ⟨_, history, t, hrun, houtcomes, hclient, rfl⟩

end

end NetworkLabs.Ftp
