import AuditTrail.Proofs.Columnar.Rows
import AuditTrail.Proofs.Text.Numerals

/-!
# Connecting to the database

Connecting asks the server for a sign of life until there is one or the attempts are used up, and then runs the statements that create
the schema until one of them fails. Both are sequences of requests of which the server sees the first ones: up to the first success of
the one sequence (`run_pingUpTo`), up to the first failure of the other (`run_sendAll`). So what is sent, in which order, and what
connecting comes to are told by what the server would answer to all of them (`connects_in_order`).
-/

namespace AuditTrail.Columnar

/-! ## Requests one after the other -/

namespace Use

variable {α : Type} {server : Server} {log : List Exchange}

/-- A use with another one in case it fails: what the first one exchanged stays. -/
theorem run_tryCatch (u : Use α) (f : Error → Use α) : (tryCatch u f).run server log =
    match u.run server log with
    | (.ok a, log) => (.ok a, log)
    | (.error e, log) => (f e).run server log := by
  have hread : ReaderT.run (tryCatch u f) server = tryCatch (ReaderT.run u server) fun e => ReaderT.run (f e) server := rfl
  simp only [run, hread, ExceptT.run_tryCatch, StateT.run_bind, Id.run_bind]
  rcases Id.run ((ReaderT.run u server).run.run log) with ⟨_ | a, log'⟩ <;> rfl

end Use

namespace Server

variable (server : Server)

/-- The exchanges of some requests that are sent one after the other, whatever becomes of them. -/
def exchanges : (log : List Exchange) → List Request → List Exchange
  | _, [] => []
  | log, r :: rest => ⟨r, server log r⟩ :: exchanges (log ++ [⟨r, server log r⟩]) rest

/-- What a statement comes to by its reply; the answer does not matter. -/
def ran (what : String) (reply : Reply) : Except Error Unit := (Use.answer what reply).map fun _ => ()

/-- What some statements come to that are sent one after the other, each with the name of its failure. -/
def outcomes (log : List Exchange) (steps : List (String × Request)) : List (Except Error Unit) :=
  List.zipWith (fun step x => ran step.1 x.reply) steps (exchanges server log (steps.map (·.2)))

@[simp] theorem length_exchanges (log : List Exchange) (rs : List Request) :
    (exchanges server log rs).length = rs.length := by
  induction rs generalizing log with
  | nil => rfl
  | cons r rest ih => rw [exchanges, List.length_cons, List.length_cons, ih]

end Server

open Server Outcome

/-! ## Signs of life -/

/-- The request for a sign of life. -/
def Settings.pingRequest (s : Settings) : Request := s.request (.statement "SELECT 1 FORMAT RowBinary")

/-- What the request for a sign of life comes to by its reply: the answer has to hold something. -/
def pinged (reply : Reply) : Except Error Unit :=
  (Use.answer "ping" reply).bind fun content => if content = [] then .error (.store "ping") else .ok ()

/-- An exchange is a sign of life. -/
def Exchange.isAlive (x : Exchange) : Bool := (pinged x.reply).isOk

theorem Exchange.isAlive_iff {x : Exchange} : x.isAlive = true ↔ pinged x.reply = .ok () := by
  unfold isAlive
  cases pinged x.reply with
  | error e => simp [Except.isOk, Except.toBool]
  | ok u => simp [Except.isOk, Except.toBool]

section

variable (server : Server) (s : Settings) (log : List Exchange)

/-- The exchange of one request for a sign of life. -/
def Server.ping : Exchange := ⟨s.pingRequest, server log s.pingRequest⟩

/-- The exchanges of so many requests for a sign of life. -/
def Server.pings (n : Nat) : List Exchange := server.exchanges log (List.replicate n s.pingRequest)

theorem Server.pings_succ (n : Nat) :
    server.pings s log (n + 1) = server.ping s log :: server.pings s (log ++ [server.ping s log]) n := rfl

@[simp] theorem Server.length_pings (n : Nat) : (server.pings s log n).length = n := by
  rw [pings, length_exchanges, List.length_replicate]

/-- Asking for a sign of life is one request. -/
theorem run_ping : (ping s).run server log = (pinged (server.ping s log).reply, log ++ [server.ping s log]) := by
  have hfill : fill "SELECT 1" [] [] = some "SELECT 1" := by decide +kernel
  have hselect : select s "ping" "SELECT 1" [] [] = Use.send "ping" s.pingRequest := by
    rw [select, hfill]
    rfl
  rw [Columnar.ping, hselect, Use.run_bind, Use.run_send, Server.ping, pinged]
  cases Use.answer "ping" (server log s.pingRequest) with
  | error e => rfl
  | ok content =>
    cases content with
    | nil => rfl
    | cons b rest => rfl

/-- One attempt: with a sign of life it is over, and else the others follow. -/
theorem run_pingUpTo_succ (more : Nat) : (pingUpTo s (more + 1)).run server log =
    if (server.ping s log).isAlive then (.ok (), log ++ [server.ping s log])
    else (pingUpTo s more).run server (log ++ [server.ping s log]) := by
  rw [pingUpTo, Use.run_tryCatch, run_ping, Exchange.isAlive]
  cases pinged (server.ping s log).reply with
  | error e => rfl
  | ok u => rfl

/-- Without a sign of life all attempts are made, and the last one tells what they come to. -/
theorem run_pingUpTo_of_dead (more : Nat) (h : ∀ x ∈ server.pings s log (more + 1), x.isAlive = false) :
    ∃ x, (server.pings s log (more + 1)).getLast? = some x ∧
      (pingUpTo s more).run server log = (pinged x.reply, log ++ server.pings s log (more + 1)) := by
  induction more generalizing log with
  | zero => exact ⟨_, rfl, run_ping server s log⟩
  | succ more ih =>
    -- the first attempt fails, and the others are made after it
    rw [Server.pings_succ] at h ⊢
    obtain ⟨hfirst, hothers⟩ := List.forall_mem_cons.1 h
    obtain ⟨x, hlast, hrun⟩ := ih _ hothers
    refine ⟨x, ?_, ?_⟩
    · rw [List.getLast?_cons, hlast]
      rfl
    · rw [run_pingUpTo_succ, hfirst, if_neg Bool.false_ne_true, hrun, List.append_assoc, List.singleton_append]

/-- With a sign of life among the attempts the first one is the last that is made. -/
theorem run_pingUpTo_of_alive (more : Nat) (h : ∃ x ∈ server.pings s log (more + 1), x.isAlive = true) :
    (pingUpTo s more).run server log =
      (.ok (), log ++ server.pings s log ((server.pings s log (more + 1)).findIdx Exchange.isAlive + 1)) := by
  induction more generalizing log with
  | zero =>
    obtain ⟨x, hx, halive⟩ := h
    obtain rfl : x = server.ping s log := List.mem_singleton.1 hx
    rw [Server.pings_succ server s log 0, List.findIdx_cons, halive, pingUpTo, run_ping, Exchange.isAlive_iff.1 halive]
    rfl
  | succ more ih =>
    rw [Server.pings_succ server s log (more + 1), List.findIdx_cons, run_pingUpTo_succ]
    cases hfirst : (server.ping s log).isAlive with
    | true => rfl
    | false =>
      obtain ⟨x, hx, halive⟩ := h
      have hothers : x ∈ server.pings s (log ++ [server.ping s log]) (more + 1) := by
        rcases List.mem_cons.1 hx with rfl | hx
        · exact absurd (hfirst.symm.trans halive) Bool.false_ne_true
        · exact hx
      rw [if_neg Bool.false_ne_true, ih _ ⟨x, hothers, halive⟩, cond_false, List.append_assoc, List.singleton_append]
      rfl

end

/-! ## Templates without places to fill in -/

/-- A character that is no question mark stands for itself in a template. -/
theorem ofChars_cons {c : Char} (h : c ≠ '?') (cs : List Char) : Mark.ofChars (c :: cs) = .char c :: Mark.ofChars cs := by
  rw [Mark.ofChars.eq_5 c cs (fun _ hc _ => h hc) (fun _ hc _ => h hc) h]

theorem mapM_char_cons (c : Char) (marks : List Mark) :
    (Mark.char c :: marks).mapM Mark.char? = (marks.mapM Mark.char?).map (c :: ·) := by
  rw [List.mapM_cons]
  cases marks.mapM Mark.char? <;> rfl

/-- What a template without places says is followed by what the rest of it says. -/
theorem mapM_ofChars_append {cs name : List Char} (h : (Mark.ofChars cs).mapM Mark.char? = some name) (rest : List Char) :
    (Mark.ofChars (cs ++ rest)).mapM Mark.char? = ((Mark.ofChars rest).mapM Mark.char?).map (name ++ ·) := by
  -- after a character, be it written once or twice, the rest is read on its own
  have hcons : ∀ {c : Char} {cs name : List Char}, (Mark.char c :: Mark.ofChars cs).mapM Mark.char? = some name →
      (∀ {name}, (Mark.ofChars cs).mapM Mark.char? = some name → (Mark.ofChars (cs ++ rest)).mapM Mark.char? =
        ((Mark.ofChars rest).mapM Mark.char?).map (name ++ ·)) →
      (Mark.char c :: Mark.ofChars (cs ++ rest)).mapM Mark.char? = ((Mark.ofChars rest).mapM Mark.char?).map (name ++ ·) := by
    intro c cs name h ih
    rw [mapM_char_cons] at h
    obtain ⟨tail, htail, rfl⟩ := Option.map_eq_some_iff.1 h
    rw [mapM_char_cons, ih htail, Option.map_map]
    rfl
  fun_induction Mark.ofChars cs generalizing name with
  | case1 =>
    obtain rfl : [] = name := Option.some.inj h
    exact Option.map_id'.symm
  | case2 cs ih => exact hcons h ih
  | case3 cs ih =>
    rw [List.mapM_cons] at h
    exact nomatch h
  | case4 cs _ _ ih =>
    rw [List.mapM_cons] at h
    exact nomatch h
  | case5 c cs _ _ hc ih =>
    rw [List.cons_append, ofChars_cons hc]
    exact hcons h ih

/-- A text without question marks is a template that says what it is. -/
theorem plain_of_not_mem {t : String} (h : '?' ∉ t.toList) : plain t = some t := by
  have hchars : ∀ cs : List Char, '?' ∉ cs → (Mark.ofChars cs).mapM Mark.char? = some cs := by
    intro cs hcs
    induction cs with
    | nil => rfl
    | cons c cs ih =>
      rw [List.mem_cons, not_or] at hcs
      rw [ofChars_cons (Ne.symm hcs.1), mapM_char_cons, ih hcs.2]
      rfl
  rw [plain, hchars _ h, Option.map_some, String.ofList_toList]

/-- A template after one without places. -/
theorem plain_append {t name : String} (h : plain t = some name) (rest : String) :
    plain (t ++ rest) = (plain rest).map (name ++ ·) := by
  obtain ⟨cs, hcs, rfl⟩ := Option.map_eq_some_iff.1 h
  rw [plain, plain, String.toList_append, mapM_ofChars_append hcs, Option.map_map, Option.map_map]
  congr 1
  funext as
  exact String.ofList_append

/-- A text has no character that is not among those it is made of. A literal is given by its characters; its octets, from which
`toList` takes them again, are slow to decode. -/
theorem not_mem_toList_ofList {c : Char} {cs : List Char} (h : c ∉ cs) : c ∉ (String.ofList cs).toList := by
  rwa [String.toList_ofList]

/-- A template between two texts without question marks. -/
theorem plain_enclosed {pre tail : String} (hpre : '?' ∉ pre.toList) (htail : '?' ∉ tail.toList) {t name : String}
    (h : plain t = some name) : plain (pre ++ t ++ tail) = some (pre ++ name ++ tail) := by
  have hfront : plain (pre ++ t) = some (pre ++ name) := by
    rw [plain_append (plain_of_not_mem hpre), h, Option.map_some]
  rw [plain_append hfront, plain_of_not_mem htail, Option.map_some]

/-! ## The schema -/

namespace Settings

/-- The settings with another database. -/
def withDatabase (s : Settings) (name : String) : Settings := { s with database := name }

/-- The statements that create the schema of a database of that name, each with the name of its failure. -/
def schema (s : Settings) (name : String) : List (String × Request) :=
  [("create database", s.requestWithoutDatabase (.statement (s.withDatabase name).createDatabase)),
    ("create table", s.request (.statement (s.withDatabase name).createChangeTable)),
    ("create table", s.request (.statement (s.withDatabase name).createTransactionTable))]

variable (s : Settings)

/-- The statement that creates the database is a template just if the name of the database is one. -/
theorem plain_createDatabase :
    plain s.createDatabase = (plain s.database).map fun name => (s.withDatabase name).createDatabase := by
  have hpre : plain "CREATE DATABASE IF NOT EXISTS " = some "CREATE DATABASE IF NOT EXISTS " :=
    plain_of_not_mem (not_mem_toList_ofList (by decide +kernel))
  unfold createDatabase
  exact plain_append hpre s.database

variable {s}

/-- In a statement that creates a table only the name of the database may have question marks. -/
theorem plain_createTable {name table description : String} (h : plain s.database = some name) (htable : '?' ∉ table.toList)
    (hdescription : '?' ∉ description.toList) (days : UInt32) :
    plain (s.createTable table description days) = some ((s.withDatabase name).createTable table description days) := by
  have hdays : '?' ∉ (toString days.toNat).toList := by
    rw [Numeral.toList_toString]
    intro hmem
    exact absurd (Nat.isDigit_of_mem_toDigits (by decide) (by decide) hmem) (by decide)
  have htail : '?' ∉ ("." ++ table ++ description ++ toString days.toNat ++ " DAY").toList := by
    simp only [String.toList_append, List.mem_append, not_or]
    exact ⟨⟨⟨⟨by decide, htable⟩, hdescription⟩, hdays⟩, by decide⟩
  have hpre : '?' ∉ "CREATE TABLE IF NOT EXISTS ".toList := not_mem_toList_ofList (by decide +kernel)
  have hwhole := plain_enclosed hpre htail h
  unfold createTable
  simpa only [withDatabase, String.append_assoc] using hwhole

-- the literals are long, and are compared character by character
set_option maxRecDepth 4000 in
theorem plain_createChangeTable {name : String} (h : plain s.database = some name) :
    plain s.createChangeTable = some (s.withDatabase name).createChangeTable := by
  have htable : '?' ∉ ChangeRow.table.toList := not_mem_toList_ofList (by decide +kernel)
  exact plain_createTable h htable (not_mem_toList_ofList (by decide +kernel)) s.rowChangeDays

set_option maxRecDepth 4000 in
theorem plain_createTransactionTable {name : String} (h : plain s.database = some name) :
    plain s.createTransactionTable = some (s.withDatabase name).createTransactionTable := by
  have htable : '?' ∉ TransactionRow.table.toList := not_mem_toList_ofList (by decide +kernel)
  exact plain_createTable h htable (not_mem_toList_ofList (by decide +kernel)) s.transactionDays

end Settings

/-- Sends statements one after the other until one of them fails. -/
def sendAll : List (String × Request) → Use Unit
  | [] => pure ()
  | step :: rest => do
    let _ ← Use.send step.1 step.2
    sendAll rest

/-- One statement: with a failure it is over, and else the others follow. -/
theorem run_sendAll_cons (server : Server) (log : List Exchange) (step : String × Request) (rest : List (String × Request)) :
    (sendAll (step :: rest)).run server log =
      match ran step.1 (server log step.2) with
      | .ok _ => (sendAll rest).run server (log ++ [⟨step.2, server log step.2⟩])
      | .error e => (.error e, log ++ [⟨step.2, server log step.2⟩]) := by
  rw [sendAll, Use.run_bind, Use.run_send, ran]
  cases Use.answer step.1 (server log step.2) <;> rfl

/-- Of some statements those up to the first failure are sent, and it tells what they come to. -/
theorem run_sendAll (server : Server) (log : List Exchange) (steps : List (String × Request)) :
    let failed := (server.outcomes log steps).findIdx fun o => !o.isOk
    (sendAll steps).run server log = ((server.outcomes log steps)[failed]?.getD (.ok ()),
      log ++ server.exchanges log ((steps.take (failed + 1)).map (·.2))) := by
  induction steps generalizing log with
  | nil =>
    show (Except.ok (), log) = (Except.ok (), log ++ [])
    rw [List.append_nil]
  | cons step rest ih =>
    have houtcomes : server.outcomes log (step :: rest) =
        ran step.1 (server log step.2) :: server.outcomes (log ++ [⟨step.2, server log step.2⟩]) rest := rfl
    rw [run_sendAll_cons, houtcomes, List.findIdx_cons]
    cases hfirst : ran step.1 (server log step.2) with
    | error e => rfl
    | ok u =>
      show (sendAll rest).run server (log ++ [⟨step.2, server log step.2⟩]) = _
      rw [ih, List.append_assoc, List.singleton_append]
      rfl

/-- The schema is created by its statements, if the name of the database can be written into them. -/
theorem initSchema_eq {s : Settings} {name : String} (h : plain s.database = some name) :
    initSchema s = sendAll (s.schema name) := by
  have hdatabase := s.plain_createDatabase
  rw [h, Option.map_some] at hdatabase
  simp only [initSchema, execute, hdatabase, Settings.plain_createChangeTable h, Settings.plain_createTransactionTable h,
    bind_assoc, pure_bind]
  rfl

/-- There is no first failure if none of the outcomes is one. -/
theorem getD_findIdx_eq_ok_iff (os : List (Except Error Unit)) :
    os[os.findIdx fun o => !o.isOk]?.getD (.ok ()) = .ok () ↔ ∀ o ∈ os, o = .ok () := by
  induction os with
  | nil => exact ⟨fun _ o ho => absurd ho List.not_mem_nil, fun _ => rfl⟩
  | cons o os ih =>
    rw [List.findIdx_cons, List.forall_mem_cons]
    cases o with
    | error e => exact ⟨nofun, nofun⟩
    | ok u => exact ih.trans ⟨fun h => ⟨rfl, h⟩, fun h => h.2⟩

/-! ## Connecting -/

section

variable (server : Server) (s : Settings) (log : List Exchange)

/-- The first attempt is made whatever is set. -/
theorem attempts_eq : s.connectAttempts.toNat - 1 + 1 = max 1 s.connectAttempts.toNat := by
  omega

/-- The exchanges up to the first sign of life, or of all attempts if there is none. -/
def Server.asked : List Exchange :=
  log ++ server.pings s log (min (max 1 s.connectAttempts.toNat)
    ((server.pings s log (max 1 s.connectAttempts.toNat)).findIdx Exchange.isAlive + 1))

/-- Without a sign of life every attempt is made. -/
theorem Server.asked_of_dead (h : ∀ x ∈ server.pings s log (max 1 s.connectAttempts.toNat), x.isAlive = false) :
    server.asked s log = log ++ server.pings s log (max 1 s.connectAttempts.toNat) := by
  unfold asked
  rw [List.findIdx_eq_length_of_false h, length_pings, Nat.min_eq_left (Nat.le_succ _)]

/-- The attempt with the first sign of life is the last one. -/
theorem Server.asked_of_alive (h : ∃ x ∈ server.pings s log (max 1 s.connectAttempts.toNat), x.isAlive = true) :
    server.asked s log = log ++ server.pings s log
      ((server.pings s log (max 1 s.connectAttempts.toNat)).findIdx Exchange.isAlive + 1) := by
  have hidx := List.findIdx_lt_length_of_exists h
  rw [length_pings] at hidx
  unfold asked
  rw [Nat.min_eq_right (Nat.succ_le_of_lt hidx)]

/-- Without a sign of life connecting comes to what the last attempt does. -/
theorem run_connect_of_dead (h : ∀ x ∈ server.pings s log (max 1 s.connectAttempts.toNat), x.isAlive = false) :
    ∃ x e, (server.pings s log (max 1 s.connectAttempts.toNat)).getLast? = some x ∧ pinged x.reply = .error e ∧
      (connect s).run server log = (.error e, server.asked s log) := by
  rw [server.asked_of_dead s log h]
  rw [← attempts_eq] at h ⊢
  obtain ⟨x, hlast, hrun⟩ := run_pingUpTo_of_dead server s log _ h
  have hdead := h x (List.mem_of_getLast? hlast)
  obtain ⟨e, he⟩ := exists_error_of_ne_ok fun u (hu : pinged x.reply = .ok u) =>
    Bool.false_ne_true (hdead.symm.trans (Exchange.isAlive_iff.2 hu))
  exact ⟨x, e, hlast, he, by rw [connect, Use.run_bind, hrun, he]⟩

/-- With a sign of life connecting goes on with the schema, if it is to be created. -/
theorem run_connect_of_alive (h : ∃ x ∈ server.pings s log (max 1 s.connectAttempts.toNat), x.isAlive = true) :
    (connect s).run server log =
      if s.initSchema then (initSchema s).run server (server.asked s log) else (.ok (), server.asked s log) := by
  rw [server.asked_of_alive s log h]
  rw [← attempts_eq] at h ⊢
  rw [connect, Use.run_bind, run_pingUpTo_of_alive server s log _ h]
  cases s.initSchema with
  | false => rfl
  | true => rfl

/-- If the name of the database cannot be written into a statement, no statement is sent. -/
theorem run_initSchema_of_none (h : plain s.database = none) :
    (initSchema s).run server log = (.error (.store "create database"), log) := by
  have hdatabase := s.plain_createDatabase
  rw [h, Option.map_none] at hdatabase
  rw [initSchema, Use.run_bind, execute, hdatabase]
  rfl

/-- The schema is there after it was created exactly if none of its statements fails. -/
theorem run_initSchema_eq_ok_iff : ((initSchema s).run server log).1 = .ok () ↔
    ∃ name, plain s.database = some name ∧ ∀ o ∈ server.outcomes log (s.schema name), o = .ok () := by
  cases hname : plain s.database with
  | none =>
    rw [run_initSchema_of_none server s log hname]
    exact ⟨nofun, nofun⟩
  | some name =>
    rw [initSchema_eq hname, run_sendAll, getD_findIdx_eq_ok_iff]
    constructor
    · intro h
      exact ⟨name, rfl, h⟩
    · rintro ⟨_, hsame, h⟩
      cases hsame
      exact h

/-- Connecting succeeds exactly if there is a sign of life and the schema, if it is to be created, is created. -/
theorem run_connect_eq_ok_iff : ((connect s).run server log).1 = .ok () ↔
    (∃ x ∈ server.pings s log (max 1 s.connectAttempts.toNat), x.isAlive = true) ∧
      (s.initSchema = true → ∃ name, plain s.database = some name ∧
        ∀ o ∈ server.outcomes (server.asked s log) (s.schema name), o = .ok ()) := by
  by_cases h : ∃ x ∈ server.pings s log (max 1 s.connectAttempts.toNat), x.isAlive = true
  · rw [run_connect_of_alive server s log h]
    cases s.initSchema with
    | false => exact ⟨fun _ => ⟨h, nofun⟩, fun _ => rfl⟩
    | true =>
      rw [if_pos rfl, run_initSchema_eq_ok_iff]
      exact ⟨fun hok => ⟨h, fun _ => hok⟩, fun hok => hok.2 rfl⟩
  · have hnone : ∀ x ∈ server.pings s log (max 1 s.connectAttempts.toNat), x.isAlive = false := fun x hx =>
      Bool.eq_false_iff.2 fun hx' => h ⟨x, hx, hx'⟩
    obtain ⟨x, e, -, -, hrun⟩ := run_connect_of_dead server s log hnone
    rw [hrun]
    exact ⟨nofun, fun hok => absurd hok.1 h⟩

end

/-- The server is asked for a sign of life until there is one, as often as attempts are set and once at least. Without one the last
error is what connecting comes to, and nothing else is sent. With one the statements of the schema follow, if the schema is to be
created: the database with none selected, the table of row changes and the table of transactions, in this order and up to the first
failure, which is what connecting comes to. So connecting succeeds exactly if there is a sign of life and no statement fails. A
name of a database with question marks is read as a template, as every statement is; if it has a place to fill in, the first
statement fails before it is sent. -/
theorem connects_in_order (s : Settings) (server : Server) (log : List Exchange) :
    let most := max 1 s.connectAttempts.toNat
    let pings := server.pings s log most
    let asked := log ++ server.pings s log (min most (pings.findIdx Exchange.isAlive + 1))
    ((∀ x ∈ pings, x.isAlive = false) → ∃ x e, pings.getLast? = some x ∧ pinged x.reply = .error e ∧
      (connect s).run server log = (.error e, asked)) ∧
    ((∃ x ∈ pings, x.isAlive = true) →
      (s.initSchema = false → (connect s).run server log = (.ok (), asked)) ∧
      (s.initSchema = true → plain s.database = none →
        (connect s).run server log = (.error (.store "create database"), asked)) ∧
      (s.initSchema = true → ∀ name, plain s.database = some name →
        let outcomes := server.outcomes asked (s.schema name)
        let failed := outcomes.findIdx fun o => !o.isOk
        (connect s).run server log = (outcomes[failed]?.getD (.ok ()),
          asked ++ server.exchanges asked (((s.schema name).take (failed + 1)).map (·.2))))) ∧
    (((connect s).run server log).1 = .ok () ↔ (∃ x ∈ pings, x.isAlive = true) ∧
      (s.initSchema = true → ∃ name, plain s.database = some name ∧
        ∀ o ∈ server.outcomes asked (s.schema name), o = .ok ())) ∧
    ('?' ∉ s.database.toList → plain s.database = some s.database) := by
  intro most pings asked
  refine ⟨run_connect_of_dead server s log, ?_, run_connect_eq_ok_iff server s log, plain_of_not_mem⟩
  intro h
  have hrun : (connect s).run server log = if s.initSchema then (initSchema s).run server asked else (.ok (), asked) :=
    run_connect_of_alive server s log h
  refine ⟨?_, ?_, ?_⟩
  · intro hoff
    rw [hrun, hoff]
    rfl
  · intro hon hnone
    rw [hrun, hon, if_pos rfl, run_initSchema_of_none server s asked hnone]
  · intro hon name hname
    rw [hrun, hon, if_pos rfl, initSchema_eq hname, run_sendAll]

/-- A server that gives a sign of life at the second attempt and refuses the table of row changes, with a question mark in the name of
the database; and no server. -/
theorem connects_in_order_refused_table :
    let s : Settings := { database := "a??b" }
    let server := Server.scripted [.response 500 [111], .response 200 [1], .response 200 [], .response 403 [110, 111]]
    (∃ x ∈ server.pings s [] 3, x.isAlive = true) ∧ s.initSchema = true ∧ plain s.database = some "a?b" ∧
      (connect s).run server [] = (.error (.store "create table: bad response: no"),
        [⟨s.pingRequest, .response 500 [111]⟩, ⟨s.pingRequest, .response 200 [1]⟩,
          ⟨s.requestWithoutDatabase (.statement "CREATE DATABASE IF NOT EXISTS a?b"), .response 200 []⟩,
          ⟨s.request (.statement (s.withDatabase "a?b").createChangeTable), .response 403 [110, 111]⟩]) ∧
      (∀ x ∈ Server.unreachable.pings s [] 3, x.isAlive = false) ∧
      (connect s).run Server.unreachable [] = (.error (.store "ping"), List.replicate 3 ⟨s.pingRequest, .unreachable⟩) := by
  intro s server
  have hpings : ∃ x ∈ server.pings s [] 3, x.isAlive = true := by decide +kernel
  have hname : plain s.database = some "a?b" := by decide +kernel
  have hnone : ∀ x ∈ Server.unreachable.pings s [] 3, x.isAlive = false := by decide +kernel
  obtain ⟨-, halive, -⟩ := connects_in_order s server []
  obtain ⟨hdead, -⟩ := connects_in_order s Server.unreachable []
  obtain ⟨-, -, hschema⟩ := halive hpings
  obtain ⟨x, e, hlast, he, hrun⟩ := hdead hnone
  obtain rfl : ⟨s.pingRequest, .unreachable⟩ = x := Option.some.inj hlast
  obtain rfl : .store "ping" = e := Except.error.inj he
  refine ⟨hpings, rfl, hname, ?_, hnone, hrun⟩
  rw [hschema rfl "a?b" hname]
  refine Prod.ext ?_ ?_
  · rfl
  · rfl

end AuditTrail.Columnar
