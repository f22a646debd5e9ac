import Mathlib.Data.List.Basic

/-!
# Dtle.Mysql.Inspect

`Inspector.InitDBConnections` of the MySQL driver and the checks it runs on the source server:
`validateGrants`, `validateGTIDMode` and `validateBinlogs`. The inspector writes hclog records
as it goes, so a run is a `Logged` computation: the records it wrote, and its result or the text
of its error.

The server is a record of answers (`InspectorDb`), one per query, and the helpers of other
packages that the code calls are parameters, so a run is fixed by the driver config, the
answers and the helpers. `GetDBUri`'s code is not in the repository's files; it is modelled
from the spec's description of the URI, `user:password@tcp(host:port)/?charset=...`.

Main results:
* `initDBConnections_logs_head` — the first record of every run is the debug record `CreateDB`,
  which carries the whole URI;
* `initDBConnections_logs_differ_by_password` — two descriptors that differ only in the password
  give runs with different records, whatever the server answers;
* `initDBConnections_spec` — a run succeeds, and logs `Initiated`, exactly on the servers that
  pass the four checks (`Accepts`), with the row image the server gives, upper-cased.
-/

namespace Dtle
namespace Mysql

/-- hclog's levels. -/
inductive Level where
  | debug | info | warn | error
  deriving DecidableEq, Repr

/-- An hclog record: the level, the message, and the key/value pairs with each value as hclog
renders it. -/
structure LogRecord where
  level : Level
  msg : String
  args : List (String × String)
  deriving DecidableEq, Repr

/-- A computation that writes log records and returns a value, or fails with an error text. -/
structure Logged (α : Type) where
  logs : List LogRecord
  result : Except String α

namespace Logged

variable {α β : Type}

/-- Run `m`, then `f` on its value; the records of both, in order. -/
def bind (m : Logged α) (f : α → Logged β) : Logged β :=
  match m.result with
  | .ok a => ⟨m.logs ++ (f a).logs, (f a).result⟩
  | .error e => ⟨m.logs, .error e⟩

instance : Monad Logged where
  pure a := ⟨[], .ok a⟩
  bind := bind

/-- `return err`. -/
def fail (e : String) : Logged α := ⟨[], .error e⟩

/-- Run `h` on the error of `m`, after `m`'s records. -/
def onError (m : Logged α) (h : String → Logged α) : Logged α :=
  match m.result with
  | .ok _ => m
  | .error e => ⟨m.logs ++ (h e).logs, (h e).result⟩

/-- A value or error that another package's code hands back without logging. -/
def ofExcept (r : Except String α) : Logged α := ⟨[], r⟩

@[simp] theorem bind_logs (m : Logged α) (f : α → Logged β) :
    (m >>= f).logs = m.logs ++ match m.result with
      | .ok a => (f a).logs
      | .error _ => [] := by
  show (bind m f).logs = _
  unfold bind; split <;> simp_all

@[simp] theorem pure_result (a : α) : (pure a : Logged α).result = .ok a := rfl

@[simp] theorem pure_logs (a : α) : (pure a : Logged α).logs = [] := rfl

@[simp] theorem bind_result (m : Logged α) (f : α → Logged β) :
    (m >>= f).result = match m.result with
      | .ok a => (f a).result
      | .error e => .error e := by
  show (bind m f).result = _
  unfold bind; split <;> simp_all

@[simp] theorem onError_result (m : Logged α) (h : String → Logged α) :
    (m.onError h).result = match m.result with
      | .ok a => .ok a
      | .error e => (h e).result := by
  unfold onError; split <;> simp_all

@[simp] theorem onError_logs (m : Logged α) (h : String → Logged α) :
    (m.onError h).logs = m.logs ++ match m.result with
      | .ok _ => []
      | .error e => (h e).logs := by
  unfold onError; split <;> simp_all

end Logged

/-- `logger.Debug(msg, args...)` and its siblings. -/
def log (level : Level) (msg : String) (args : List (String × String)) : Logged Unit :=
  ⟨[⟨level, msg, args⟩], .ok ()⟩

/-- `strings.Contains(s, substr)`. -/
def strContains (s substr : String) : Bool :=
  (List.range (s.length + 1)).any fun i => substr.toList.isPrefixOf (s.toList.drop i)

/-- `mysqlconfig.ConnectionConfig`. -/
structure ConnectionConfig where
  host : String
  port : Nat
  user : String
  password : String
  charset : String
  deriving DecidableEq, Repr

namespace ConnectionConfig

/-- Modelled from the spec: `GetDBUri` renders `user:password@tcp(host:port)/?charset=...`, the
charset `utf8` when it is unspecified. -/
def getDBUri (c : ConnectionConfig) : String :=
  c.user ++ ":" ++ c.password ++ "@tcp(" ++ c.host ++ ":" ++ toString c.port ++ ")/?charset=" ++
    (if c.charset = "" then "utf8" else c.charset)

/-- `hclog.Fmt("%s:%d", Host, Port)`. -/
def hostPort (c : ConnectionConfig) : String := c.host ++ ":" ++ toString c.port

theorem getDBUri_password_inj (c : ConnectionConfig) {p p' : String}
    (h : { c with password := p }.getDBUri = { c with password := p' }.getDBUri) : p = p' := by
  have h := congrArg String.data h
  simp only [getDBUri, String.data_append, List.append_assoc] at h
  exact String.ext (List.append_cancel_right (List.append_cancel_left (List.append_cancel_left h)))

end ConnectionConfig

/-- The fields of `common.MySQLDriverConfig` that the inspector reads. -/
structure InspectorConfig where
  connectionConfig : ConnectionConfig
  skipPrivilegeCheck : Bool
  deriving DecidableEq, Repr

/-- How the source server answers the inspector, query by query: an error text or the rows. -/
structure InspectorDb where
  /-- `usql.CreateDB(uri)`: the driver's error for this URI, or none -/
  createDB : String → Option String
  /-- `show grants for current_user()`: the values of every row -/
  grants : Except String (List (List String))
  /-- `SELECT @@GTID_MODE` -/
  gtidMode : Except String String
  /-- `select @@log_bin, @@binlog_format` -/
  logBin : Except String (Bool × String)
  /-- `select @@binlog_row_image` -/
  binlogRowImage : Except String String

/-- What the grant loop has found so far. -/
structure GrantFlags where
  all : Bool
  super : Bool
  replicationClient : Bool
  replicationSlave : Bool
  dbAll : Bool
  deriving DecidableEq, Repr

section

-- `ubase.StringContainsAll`, whose code is not in the repository's files
variable (stringContainsAll : String → List String → Bool)

/-- One grant of the loop in `validateGrants`. -/
def grantStep (f : GrantFlags) (grant : String) : GrantFlags :=
  { all := f.all || strContains grant "GRANT ALL PRIVILEGES ON"
    super := f.super || strContains grant "SUPER"
    replicationClient := f.replicationClient || strContains grant "REPLICATION CLIENT"
    replicationSlave := f.replicationSlave || strContains grant "REPLICATION SLAVE"
    dbAll := f.dbAll || stringContainsAll grant ["SELECT"] }

/-- `for _, grantData := range rowMap { ... }` over every row; Go visits a row's values in any
order, and the flags do not depend on it. -/
def grantFlags (rows : List (List String)) : GrantFlags :=
  rows.foldl (fun f row => row.foldl (grantStep stringContainsAll) f)
    ⟨false, false, false, false, false⟩

/-- `validateGrants`. -/
def validateGrants (cfg : InspectorConfig) (db : InspectorDb) : Logged Unit :=
  if cfg.skipPrivilegeCheck then log .debug "skipping priv check" []
  else do
    let f := grantFlags stringContainsAll (← Logged.ofExcept db.grants)
    if f.all then log .info "User has ALL privileges" []
    else if f.super && f.replicationSlave && f.dbAll then
      log .info "User has SUPER, REPLICATION SLAVE privileges, and has SELECT privileges" []
    else if f.replicationClient && f.replicationSlave && f.dbAll then
      log .info
        "User has REPLICATION CLIENT, REPLICATION SLAVE privileges, and has SELECT privileges" []
    else do
      log .debug "Privileges" [("Super", toString f.super),
        ("ReplicationClient", toString f.replicationClient),
        ("ReplicationSlave", toString f.replicationSlave), ("All", toString f.all),
        ("DBAll", toString f.dbAll)]
      Logged.fail ("user has insufficient privileges for extractor." ++
        " Needed: SUPER|REPLICATION CLIENT, REPLICATION SLAVE and ALL on *.*")

theorem grantFlags_eq (rows : List (List String)) :
    grantFlags stringContainsAll rows =
      { all := rows.any (·.any (strContains · "GRANT ALL PRIVILEGES ON"))
        super := rows.any (·.any (strContains · "SUPER"))
        replicationClient := rows.any (·.any (strContains · "REPLICATION CLIENT"))
        replicationSlave := rows.any (·.any (strContains · "REPLICATION SLAVE"))
        dbAll := rows.any (·.any (stringContainsAll · ["SELECT"])) } := by
  suffices hvals : ∀ (vals : List String) (f : GrantFlags), vals.foldl (grantStep stringContainsAll) f =
      { all := f.all || vals.any (strContains · "GRANT ALL PRIVILEGES ON")
        super := f.super || vals.any (strContains · "SUPER")
        replicationClient := f.replicationClient || vals.any (strContains · "REPLICATION CLIENT")
        replicationSlave := f.replicationSlave || vals.any (strContains · "REPLICATION SLAVE")
        dbAll := f.dbAll || vals.any (stringContainsAll · ["SELECT"]) } by
    rw [grantFlags, ← List.foldl_flatten, hvals]
    simp
  intro vals
  induction vals with
  | nil => intro f; simp
  | cons g vals ih => intro f; simp [ih, grantStep, Bool.or_assoc]

/-- A value that contains `GRANT ALL PRIVILEGES ON` passes the check, whatever level, database
or table it grants on and whatever the other rows hold. -/
theorem validateGrants_ok_of_grant_all_text (cfg : InspectorConfig) (db : InspectorDb)
    (rows : List (List String)) (hrows : db.grants = .ok rows)
    (hall : rows.any (·.any (strContains · "GRANT ALL PRIVILEGES ON")) = true) :
    (validateGrants stringContainsAll cfg db).result = .ok () := by
  unfold validateGrants
  split
  · rfl
  · show (Logged.bind (Logged.ofExcept db.grants) _).result = _
    simp only [hrows, Logged.bind, Logged.ofExcept, grantFlags_eq, hall, if_true]
    rfl

/-- `validateGTIDMode`. -/
def validateGTIDMode (db : InspectorDb) : Logged Unit := do
  let gtidMode ← Logged.ofExcept db.gtidMode
  if gtidMode ≠ "ON" then Logged.fail ("must have GTID enabled: " ++ gtidMode)

/-- `validateBinlogs`, returning the `BinlogRowImage` it stores in the config: the server's
answer in upper case, `FULL` when the query fails. -/
def validateBinlogs (cfg : InspectorConfig) (db : InspectorDb) : Logged String := do
  let (hasBinaryLogs, binlogFormat) ← Logged.ofExcept db.logBin
  if !hasBinaryLogs then
    Logged.fail (cfg.connectionConfig.hostPort ++ " must have binary logs enabled")
  else if binlogFormat ≠ "ROW" then Logged.fail "it is required to set binlog_format=row"
  else do
    let binlogRowImage := match db.binlogRowImage with
      | .ok v => v
      | .error _ => "FULL"
    log .info "Binary logs validated" [("mysql", cfg.connectionConfig.hostPort)]
    pure binlogRowImage.toUpper

/-- `Inspector.InitDBConnections`, returning the `BinlogRowImage` it leaves in the config. -/
def initDBConnections (cfg : InspectorConfig) (db : InspectorDb) : Logged String := do
  let inspectorUri := cfg.connectionConfig.getDBUri
  log .debug "CreateDB" [("inspectorUri", inspectorUri)]
  match db.createDB inspectorUri with
  | some e => Logged.fail e
  | none => do
    log .debug "validateGrants" [("SkipPrivilegeCheck", toString cfg.skipPrivilegeCheck)]
    (validateGrants stringContainsAll cfg db).onError fun e => do
      log .error "Unexpected error on validateGrants" [("err", e)]
      Logged.fail e
    log .debug "validateGTIDMode" []
    validateGTIDMode db
    log .debug "validateBinlogs" [("inspectorUri", inspectorUri)]
    let binlogRowImage ← validateBinlogs cfg db
    log .info "Initiated" [("on", cfg.connectionConfig.hostPort)]
    pure binlogRowImage

theorem initDBConnections_logs_head (cfg : InspectorConfig) (db : InspectorDb) :
    (initDBConnections stringContainsAll cfg db).logs.head? =
      some ⟨.debug, "CreateDB", [("inspectorUri", cfg.connectionConfig.getDBUri)]⟩ := by
  simp [initDBConnections, log]

/-- Two descriptors that differ only in the password: whatever the server answers, the two runs
write different log records. -/
theorem initDBConnections_logs_differ_by_password (cfg : InspectorConfig) (db : InspectorDb)
    {p p' : String} (h : p ≠ p') :
    (initDBConnections stringContainsAll
        { cfg with connectionConfig := { cfg.connectionConfig with password := p } } db).logs ≠
      (initDBConnections stringContainsAll
        { cfg with connectionConfig := { cfg.connectionConfig with password := p' } } db).logs := by
  intro hl
  have := congrArg List.head? hl
  simp only [initDBConnections_logs_head, Option.some.injEq, LogRecord.mk.injEq,
    List.cons.injEq, Prod.mk.injEq, true_and, and_true] at this
  exact h (cfg.connectionConfig.getDBUri_password_inj this)

/-- The grants the inspector asks for, read off the rows: every privilege, or SUPER or
REPLICATION CLIENT together with REPLICATION SLAVE and SELECT. -/
def grantsSuffice (rows : List (List String)) : Bool :=
  rows.any (·.any (strContains · "GRANT ALL PRIVILEGES ON")) ||
    (rows.any (·.any (strContains · "SUPER")) ||
        rows.any (·.any (strContains · "REPLICATION CLIENT"))) &&
      rows.any (·.any (strContains · "REPLICATION SLAVE")) &&
      rows.any (·.any (stringContainsAll · ["SELECT"]))

theorem grantsSuffice_eq (rows : List (List String)) :
    grantsSuffice stringContainsAll rows =
      ((grantFlags stringContainsAll rows).all ||
        ((grantFlags stringContainsAll rows).super ||
            (grantFlags stringContainsAll rows).replicationClient) &&
          (grantFlags stringContainsAll rows).replicationSlave &&
          (grantFlags stringContainsAll rows).dbAll) := by
  rw [grantFlags_eq]; rfl

theorem validateGrants_result (cfg : InspectorConfig) (db : InspectorDb) :
    (validateGrants stringContainsAll cfg db).result = .ok () ↔
      cfg.skipPrivilegeCheck = true ∨
        ∃ rows, db.grants = .ok rows ∧ grantsSuffice stringContainsAll rows = true := by
  unfold validateGrants
  split
  · simp_all [log]
  · rename_i hskip
    cases hg : db.grants with
    | error e => simp [hg, hskip, Logged.ofExcept]
    | ok rows =>
      simp only [Logged.bind_result, Logged.ofExcept, hg, grantsSuffice_eq, Except.ok.injEq,
        exists_eq_left', hskip, Bool.false_eq_true, false_or]
      generalize grantFlags stringContainsAll rows = f
      obtain ⟨a, b, c, d, e⟩ := f
      split_ifs <;> simp_all [log, Logged.fail]
      rintro (rfl | rfl) rfl <;> simp_all

theorem validateGTIDMode_result (db : InspectorDb) :
    (validateGTIDMode db).result = .ok () ↔ db.gtidMode = .ok "ON" := by
  unfold validateGTIDMode
  cases db.gtidMode with
  | error e => simp [Logged.ofExcept]
  | ok m => by_cases hm : m = "ON" <;> simp [Logged.ofExcept, hm, Logged.fail]

theorem validateBinlogs_result (cfg : InspectorConfig) (db : InspectorDb) (img : String) :
    (validateBinlogs cfg db).result = .ok img ↔
      db.logBin = .ok (true, "ROW") ∧ img = (db.binlogRowImage.toOption.getD "FULL").toUpper := by
  unfold validateBinlogs
  cases db.logBin with
  | error e => simp [Logged.ofExcept]
  | ok r =>
    obtain ⟨b, fmt⟩ := r
    cases b
    · simp [Logged.ofExcept, Logged.fail]
    · by_cases hf : fmt = "ROW"
      · subst hf
        cases db.binlogRowImage <;> simp [Logged.ofExcept, log, Except.toOption] <;> exact eq_comm
      · simp [Logged.ofExcept, Logged.fail, hf]

theorem validateGrants_logs (cfg : InspectorConfig) (db : InspectorDb) :
    ∀ r ∈ (validateGrants stringContainsAll cfg db).logs, r.msg ≠ "Initiated" := by
  unfold validateGrants
  split
  · simp [log]
  · cases db.grants with
    | error e => simp [Logged.ofExcept]
    | ok rows =>
      simp only [Logged.bind_logs, Logged.ofExcept]
      split_ifs <;> simp [log, Logged.fail]

theorem validateBinlogs_logs (cfg : InspectorConfig) (db : InspectorDb) :
    ∀ r ∈ (validateBinlogs cfg db).logs, r.msg ≠ "Initiated" := by
  unfold validateBinlogs
  cases db.logBin with
  | error e => simp [Logged.ofExcept]
  | ok r =>
    obtain ⟨b, fmt⟩ := r
    cases b <;> by_cases hf : fmt = "ROW" <;> simp [Logged.ofExcept, Logged.fail, hf, log]

/-- The servers the inspector takes: the driver connects with the URI, the grants suffice or go
unchecked, GTID is on, and the binary log is on in row format. -/
def Accepts (cfg : InspectorConfig) (db : InspectorDb) : Prop :=
  db.createDB cfg.connectionConfig.getDBUri = none ∧
    (cfg.skipPrivilegeCheck = true ∨
      ∃ rows, db.grants = .ok rows ∧ grantsSuffice stringContainsAll rows = true) ∧
    db.gtidMode = .ok "ON" ∧ db.logBin = .ok (true, "ROW")

/-- `InitDBConnections` succeeds exactly on the servers `Accepts` describes, whatever the server
answers, and leaves the server's row image upper-cased (`FULL` when it does not say) in the
config; the `Initiated` record is written exactly on those runs. -/
theorem initDBConnections_spec (cfg : InspectorConfig) (db : InspectorDb) :
    (∀ img, (initDBConnections stringContainsAll cfg db).result = .ok img ↔
      Accepts stringContainsAll cfg db ∧
        img = (db.binlogRowImage.toOption.getD "FULL").toUpper) ∧
    (⟨.info, "Initiated", [("on", cfg.connectionConfig.hostPort)]⟩ ∈
        (initDBConnections stringContainsAll cfg db).logs ↔ Accepts stringContainsAll cfg db) := by
  unfold initDBConnections
  simp only [Logged.bind_result, Logged.bind_logs, log]
  cases hc : db.createDB cfg.connectionConfig.getDBUri with
  | some e => simp [Accepts, hc, Logged.fail]
  | none =>
    simp only [Logged.bind_result, Logged.bind_logs, Logged.onError_result, Logged.onError_logs]
    have hvg : ∀ a, ⟨.info, "Initiated", a⟩ ∉ (validateGrants stringContainsAll cfg db).logs :=
      fun _ h => validateGrants_logs stringContainsAll cfg db _ h rfl
    have hvb : ∀ a, ⟨.info, "Initiated", a⟩ ∉ (validateBinlogs cfg db).logs :=
      fun _ h => validateBinlogs_logs cfg db _ h rfl
    have hvm : (validateGTIDMode db).logs = [] := by
      unfold validateGTIDMode; cases db.gtidMode <;> simp [Logged.ofExcept]; split <;> rfl
    cases hg : (validateGrants stringContainsAll cfg db).result with
    | error e =>
      have hng := (validateGrants_result stringContainsAll cfg db).not.mp (by simp [hg])
      simp [Logged.fail, Accepts, hng, hvg]
    | ok u =>
      have hgok := (validateGrants_result stringContainsAll cfg db).mp hg
      cases hm : (validateGTIDMode db).result with
      | error e =>
        have hnm := (validateGTIDMode_result db).not.mp (by simp [hm])
        simp [Accepts, hnm, hvg, hvm]
      | ok u' =>
        have hmok := (validateGTIDMode_result db).mp hm
        cases hb : (validateBinlogs cfg db).result with
        | error e =>
          have hnb : db.logBin ≠ .ok (true, "ROW") := fun h => by
            have := (validateBinlogs_result cfg db _).mpr ⟨h, rfl⟩
            rw [hb] at this; cases this
          simp [Accepts, hnb, hvg, hvb, hvm]
        | ok img =>
          obtain ⟨hbok, rfl⟩ := (validateBinlogs_result cfg db img).mp hb
          simp [Accepts, hc, hgok, hmok, hbok]
          exact fun _ => eq_comm

end

theorem initDBConnections_logs_differ_pw1_pw2 :
    "pw1" ≠ "pw2" ∧
      (initDBConnections (fun _ _ => true)
          { connectionConfig := ⟨"127.0.0.1", 3306, "root", "pw1", ""⟩,
            skipPrivilegeCheck := false }
          ⟨fun _ => none, .ok [], .ok "ON", .ok (true, "ROW"), .ok "full"⟩).logs ≠
        (initDBConnections (fun _ _ => true)
          { connectionConfig := ⟨"127.0.0.1", 3306, "root", "pw2", ""⟩,
            skipPrivilegeCheck := false }
          ⟨fun _ => none, .ok [], .ok "ON", .ok (true, "ROW"), .ok "full"⟩).logs :=
  ⟨by decide, initDBConnections_logs_differ_by_password (fun _ _ => true)
    { connectionConfig := ⟨"127.0.0.1", 3306, "root", "", ""⟩, skipPrivilegeCheck := false }
    ⟨fun _ => none, .ok [], .ok "ON", .ok (true, "ROW"), .ok "full"⟩ (by decide)⟩

theorem validateGrants_ok_grant_all_on_one_database :
    [["GRANT ALL PRIVILEGES ON `db`.* TO `u`@`%`"]].any
        (·.any (strContains · "GRANT ALL PRIVILEGES ON")) = true ∧
      (validateGrants (fun _ _ => false)
        { connectionConfig := ⟨"127.0.0.1", 3306, "u", "pw", ""⟩, skipPrivilegeCheck := false }
        ⟨fun _ => none, .ok [["GRANT ALL PRIVILEGES ON `db`.* TO `u`@`%`"]], .ok "ON",
          .ok (true, "ROW"), .ok "FULL"⟩).result = .ok () :=
  ⟨by decide, validateGrants_ok_of_grant_all_text (fun _ _ => false) _ _ _ rfl (by decide)⟩

end Mysql
end Dtle
