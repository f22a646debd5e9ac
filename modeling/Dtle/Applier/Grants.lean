import Dtle.Mysql.Inspect

/-!
# Dtle.Applier.Grants

`ApplierOracle.ValidateGrants`: the applier reads `show grants for current_user()` and sets three
flags from the text of each value, `foundAll`, `foundSuper` and `foundDBAll`; it accepts on any
of them, with a `use mysql` probe between the first and the other two when `ExpandSyntaxSupport`
is set.

The flags are read off the text (`applierGrantFlags_eq`): a value that contains
`GRANT ALL PRIVILEGES ON` sets `foundAll` whatever it grants on, and the check then returns nil.
`validateGrants_passes_iff` gives the whole condition: the probe, when it fails, rejects every
user whose grants lack that text, SUPER included.
-/

namespace Dtle
namespace Applier

open Mysql

/-- The fields of the applier's `MySQLDriverConfig` that the check reads. -/
structure GrantsConfig where
  skipPrivilegeCheck : Bool
  expandSyntaxSupport : Bool
  deriving DecidableEq, Repr

/-- How the target server answers the check. -/
structure GrantsDb where
  /-- `show grants for current_user()`: the values of every row -/
  grants : Except String (List (List String))
  /-- `use mysql`: the server's error, or none -/
  useMysql : Option String

/-- What the applier's grant loop has found so far. -/
structure ApplierGrantFlags where
  all : Bool
  super : Bool
  dbAll : Bool
  deriving DecidableEq, Repr

/-- The privileges `base.StringContainsAll` looks for, and the text ` ON`. -/
def dbAllTexts : List String :=
  ["ALTER", "CREATE", "DELETE", "DROP", "INDEX", "INSERT", "SELECT", "TRIGGER", "UPDATE", " ON"]

section

-- `base.StringContainsAll`, `g.DtleSchemaName` and `g.GtidExecutedTableV4`, whose code is not in
-- the repository's files
variable (stringContainsAll : String → List String → Bool) (dtleSchemaName gtidExecutedTableV4 : String)

/-- One value of the loop in `ValidateGrants`. -/
def applierGrantStep (f : ApplierGrantFlags) (grant : String) : ApplierGrantFlags :=
  { all := f.all || strContains grant "GRANT ALL PRIVILEGES ON"
    super := f.super || (strContains grant "SUPER" && strContains grant " ON *.*")
    dbAll := f.dbAll ||
      strContains grant ("GRANT ALL PRIVILEGES ON `" ++ dtleSchemaName ++ "`.`" ++
        gtidExecutedTableV4 ++ "`") ||
      stringContainsAll grant dbAllTexts }

/-- The flags after every value of every row. -/
def applierGrantFlags (rows : List (List String)) : ApplierGrantFlags :=
  rows.foldl (fun f row => row.foldl (applierGrantStep stringContainsAll dtleSchemaName
    gtidExecutedTableV4) f) ⟨false, false, false⟩

/-- `ApplierOracle.ValidateGrants`. -/
def validateGrants (cfg : GrantsConfig) (db : GrantsDb) : Logged Unit :=
  if cfg.skipPrivilegeCheck then log .debug "skipping priv check" []
  else do
    let f := applierGrantFlags stringContainsAll dtleSchemaName gtidExecutedTableV4
      (← Logged.ofExcept db.grants)
    if f.all then log .info "User has ALL privileges" []
    else do
      if cfg.expandSyntaxSupport then
        match db.useMysql with
        | some err => do
          let msg := "\"mysql\" schema is expected to be access when ExpandSyntaxSupport=true"
          log .info msg [("error", err)]
          Logged.fail (msg ++ ". error: " ++ err)
        | none => pure ()
      if f.super then log .info "User has SUPER privileges" []
      else if f.dbAll then log .info "User has ALL privileges on *.*" []
      else do
        log .debug "Privileges" [("Super", toString f.super), ("All", toString f.all)]
        Logged.fail ("user has insufficient privileges for ApplierOracle. Needed:ALTER, CREATE, " ++
          "DROP, INDEX, REFERENCES, INSERT, DELETE, UPDATE, SELECT, TRIGGER ON *.*")

theorem applierGrantFlags_eq (rows : List (List String)) :
    applierGrantFlags stringContainsAll dtleSchemaName gtidExecutedTableV4 rows =
      { all := rows.any (·.any (strContains · "GRANT ALL PRIVILEGES ON"))
        super := rows.any (·.any fun g => strContains g "SUPER" && strContains g " ON *.*")
        dbAll := rows.any (·.any fun g =>
          strContains g ("GRANT ALL PRIVILEGES ON `" ++ dtleSchemaName ++ "`.`" ++
            gtidExecutedTableV4 ++ "`") || stringContainsAll g dbAllTexts) } := by
  suffices hvals : ∀ (vals : List String) (f : ApplierGrantFlags),
      vals.foldl (applierGrantStep stringContainsAll dtleSchemaName gtidExecutedTableV4) f =
      { all := f.all || vals.any (strContains · "GRANT ALL PRIVILEGES ON")
        super := f.super || vals.any fun g => strContains g "SUPER" && strContains g " ON *.*"
        dbAll := f.dbAll || vals.any fun g =>
          strContains g ("GRANT ALL PRIVILEGES ON `" ++ dtleSchemaName ++ "`.`" ++
            gtidExecutedTableV4 ++ "`") || stringContainsAll g dbAllTexts } by
    rw [applierGrantFlags, ← List.foldl_flatten, hvals]
    simp
  intro vals
  induction vals with
  | nil => intro f; simp
  | cons g vals ih => intro f; simp [ih, applierGrantStep, Bool.or_assoc]

/-- A value that contains `GRANT ALL PRIVILEGES ON` passes the check, whatever it grants on:
one database, one table, or the applier's own `gtid_executed` table. -/
theorem validateGrants_accepts_all_privileges_anywhere (cfg : GrantsConfig) (db : GrantsDb)
    (rows : List (List String)) (hrows : db.grants = .ok rows)
    (hall : rows.any (·.any (strContains · "GRANT ALL PRIVILEGES ON")) = true) :
    (validateGrants stringContainsAll dtleSchemaName gtidExecutedTableV4 cfg db).result = .ok () := by
  unfold validateGrants
  split
  · rfl
  · show (Logged.bind (Logged.ofExcept db.grants) _).result = _
    simp only [hrows, Logged.bind, Logged.ofExcept, applierGrantFlags_eq, hall, if_true]
    rfl

/-- The check passes exactly when it is skipped; or a value holds the text
`GRANT ALL PRIVILEGES ON`; or, the `use mysql` probe passing or not asked for, a value grants
SUPER on `*.*` or the privileges on the tables. A refused probe thus rejects every user whose
grants lack the `GRANT ALL` text, SUPER included. -/
theorem validateGrants_passes_iff (cfg : GrantsConfig) (db : GrantsDb) :
    (validateGrants stringContainsAll dtleSchemaName gtidExecutedTableV4 cfg db).result = .ok () ↔
      cfg.skipPrivilegeCheck = true ∨ ∃ rows, db.grants = .ok rows ∧
        (rows.any (·.any (strContains · "GRANT ALL PRIVILEGES ON")) = true ∨
          (cfg.expandSyntaxSupport = false ∨ db.useMysql = none) ∧
            (rows.any (·.any fun g => strContains g "SUPER" && strContains g " ON *.*") ||
              rows.any (·.any fun g =>
                strContains g ("GRANT ALL PRIVILEGES ON `" ++ dtleSchemaName ++ "`.`" ++
                  gtidExecutedTableV4 ++ "`") || stringContainsAll g dbAllTexts)) = true) := by
  unfold validateGrants
  split
  · simp_all [log]
  · rename_i hskip
    cases hg : db.grants with
    | error e => simp [hg, hskip, Logged.ofExcept]
    | ok rows =>
      have hf := applierGrantFlags_eq stringContainsAll dtleSchemaName gtidExecutedTableV4 rows
      have h1 := congrArg ApplierGrantFlags.all hf
      have h2 := congrArg ApplierGrantFlags.super hf
      have h3 := congrArg ApplierGrantFlags.dbAll hf
      dsimp only at h1 h2 h3
      simp only [Logged.bind_result, Logged.ofExcept, hg, Except.ok.injEq, exists_eq_left', hskip,
        Bool.false_eq_true, false_or, ← h1, ← h2, ← h3]
      generalize applierGrantFlags stringContainsAll dtleSchemaName gtidExecutedTableV4 rows = f
      obtain ⟨a, b, c⟩ := f
      cases a
      · cases hx : cfg.expandSyntaxSupport <;> cases hu : db.useMysql <;>
          cases b <;> cases c <;> simp [log, Logged.fail, hu]
      · simp [log]

end

theorem validateGrants_accepts_gtid_executed_grant :
    [["GRANT ALL PRIVILEGES ON `dtle`.`gtid_executed_v4` TO `u`@`%`"]].any
        (·.any (strContains · "GRANT ALL PRIVILEGES ON")) = true ∧
      (validateGrants (fun _ _ => false) "dtle" "gtid_executed_v4" ⟨false, true⟩
        ⟨.ok [["GRANT ALL PRIVILEGES ON `dtle`.`gtid_executed_v4` TO `u`@`%`"]],
          some "access denied"⟩).result = .ok () :=
  ⟨by decide, validateGrants_accepts_all_privileges_anywhere (fun _ _ => false) "dtle"
    "gtid_executed_v4" _ _ _ rfl (by decide)⟩

end Applier
end Dtle
