import Mathlib
import TypedSql.Cli.Run
import TypedSql.Proofs.Preconditions
import TypedSql.Proofs.RequestParts

/-!
# The table of a command

A command takes the table and its mapping from the project file. A project that is accepted has valid
table names only, so a statement never fails at its table or its mapping. What the request says about
the two is read and then replaced: requests that give the same nodes for the other parts make the same
statement (`Cli.project_decides_target`).
-/

namespace TypedSql

/-- The fault is about the table or the mapping of a statement. -/
def BuildError.isTarget : BuildError → Bool
  | .missingArgument .mapping | .missingArgument .table | .invalidIdentifier _ => true
  | _ => false

theorem BuildError.isPrecondition_of_isTarget {fault : BuildError} (h : fault.isTarget = true) :
    fault.isPrecondition = true := by
  cases fault with
  | missingArgument _ | invalidIdentifier _ => rfl
  | _ => cases h

/-! ### Tables of a project -/

namespace Project

theorem fault?_eq_none_of_ofText {text : String} {p : Project} (h : ofText text = .ok p) :
    p.fault? = none := by
  unfold ofText at h
  split at h
  · cases h
  · split at h
    · cases h
    · next hnone =>
      cases h
      exact hnone

/-- The tables of a project that is accepted have valid names. -/
theorem tableName_fault?_eq_none {text table : String} {p : Project} {mapping : Mapping}
    (h : ofText text = .ok p) (htable : p.mapping? table = some mapping) :
    TableName.fault? table = none := by
  have hmem : (table, mapping) ∈ p.tables := Fields.mem_of_get?_eq_some htable
  have hnone := fault?_eq_none_of_ofText h
  unfold fault? at hnone
  split at hnone
  · cases hnone
  · split at hnone
    · cases hnone
    · next htables =>
      have htable := List.findSome?_eq_none_iff.mp htables _ hmem
      unfold tableFault? at htable
      split at htable
      · cases htable
      · assumption

end Project

/-! ### Checks behind the target -/

variable {fault : BuildError}

/-- An order fails with a fault of its shape only. -/
theorem Order.shape_of_eq_error {order : Option Value} (h : Order.ofValue? order = .error fault) :
    ∃ shape, fault = .invalidShape shape := by
  unfold Order.ofValue? at h
  split at h
  · cases h
  · cases h
  · obtain ⟨shape, -, rfl⟩ := mapError_eq_error_iff.mp h
    exact ⟨shape, rfl⟩
  · exact ⟨_, (Except.error.inj h).symm⟩

theorem Page.shape_of_eq_error {s : Settings} {offset : Option Value}
    (h : Page.ofValue? s offset = .error fault) : ∃ shape, fault = .invalidShape shape := by
  unfold Page.ofValue? at h
  split at h
  · cases h
  · cases h
  · split at h
    · cases h
    · obtain ⟨shape, -, rfl⟩ := mapError_eq_error_iff.mp h
      exact ⟨shape, rfl⟩

theorem CountAlias.shape_of_eq_error {count : Option Value}
    (h : CountAlias.ofValue? count = .error fault) : ∃ shape, fault = .invalidShape shape := by
  unfold CountAlias.ofValue? at h
  split at h
  · cases h
  · cases h
  · split at h
    · exact ⟨_, (Except.error.inj h).symm⟩
    · cases h
  · exact ⟨_, (Except.error.inj h).symm⟩

namespace Builder

theorem require_eq_error {α : Type} {requirement : Requirement} {part : Option α}
    (h : require requirement part = .error fault) : fault = .missingArgument requirement := by
  cases part with
  | none => exact (Except.error.inj h).symm
  | some a => cases h

/-- Checks of a request whose target is found do not fail at the target. -/
theorem checks_isTarget_eq_false {s : Settings} {op : Operation} {r : Request}
    {found : Mapping × String} (htarget : target r = .ok found)
    (h : checks s r op = .error fault) : fault.isTarget = false := by
  have hshape (h : ∃ shape, fault = .invalidShape shape) : fault.isTarget = false := by
    obtain ⟨shape, rfl⟩ := h
    rfl
  have hnone : ∀ fault, target r ≠ .error fault := by simp [htarget]
  cases op with
  | insert | replace =>
    simp only [checks, bind_eq_error_iff, map_eq_error_iff, hnone, and_false, exists_false,
      or_false] at h
    rw [require_eq_error h]
    rfl
  | update | advancedUpdate =>
    simp only [checks, updateParts, except_bind_def, except_pure_def, bind_eq_error_iff,
      map_eq_error_iff, hnone, reduceCtorEq, and_false, exists_false, or_false] at h
    rcases h with hdata | ⟨-, -, hfilter⟩
    · rw [require_eq_error hdata]
      rfl
    · rw [require_eq_error hfilter]
      rfl
  | delete | advancedDelete => exact absurd (map_eq_error_iff.mp h) (hnone fault)
  | get =>
    simp only [checks, bind_eq_error_iff, map_eq_error_iff, hnone, false_or] at h
    obtain ⟨-, -, horder | ⟨-, -, hpage⟩⟩ := h
    · exact hshape (Order.shape_of_eq_error horder)
    · exact hshape (Page.shape_of_eq_error hpage)
  | query =>
    simp only [checks, bind_eq_error_iff, map_eq_error_iff, hnone, false_or] at h
    obtain ⟨-, -, horder | ⟨-, -, hpage | ⟨-, -, hcount⟩⟩⟩ := h
    · exact hshape (Order.shape_of_eq_error horder)
    · exact hshape (Page.shape_of_eq_error hpage)
    · exact hshape (CountAlias.shape_of_eq_error hcount)
  | count =>
    simp only [checks, bind_eq_error_iff, map_eq_error_iff, hnone, false_or] at h
    obtain ⟨-, -, hcount | ⟨_, -, hlabel⟩⟩ := h
    · exact hshape (CountAlias.shape_of_eq_error hcount)
    · rw [require_eq_error hlabel]
      rfl

/-- A statement for a table with a valid name does not fail at its target. -/
theorem build_withTarget_isTarget_eq_false {b : Builder} {op : Operation} {r : Request}
    {table : String} {mapping : Mapping} (htable : TableName.fault? table = none)
    (h : (b.build op (r.withTarget table mapping)).result = .error fault) :
    fault.isTarget = false := by
  cases hfault : fault.isTarget with
  | false => rfl
  | true =>
    have htarget : target (r.withTarget table mapping) = .ok (mapping, table) :=
      target_eq_ok_iff.mpr ⟨rfl, rfl, htable⟩
    have hchecks := (build_eq_error_iff_checks (BuildError.isPrecondition_of_isTarget hfault)).mp h
    exact hfault.symm.trans (checks_isTarget_eq_false htarget hchecks)

end Builder

/-! ### Texts of requests -/

namespace Cli

variable {op : Operation} {r r' : Request} {text text' table : String} {mapping : Mapping}

/-- The parts that the text of a request gives, each with its node; a blank text gives none. -/
def givenParts (op : Operation) (text : String) : List (Json.Part × Json.Node) :=
  if Text.allBlank text then [] else Json.givenParts op text

/-- A text that is read gives each part at most once, and is read part by part. -/
theorem readParts_of_readRequest (h : readRequest op text = .ok r) :
    Json.readParts .empty (givenParts op text) = .ok r ∧
      ((givenParts op text).map Prod.fst).Nodup := by
  unfold readRequest at h
  unfold givenParts
  split at h
  · next hblank =>
    rw [if_pos hblank]
    exact ⟨h, List.nodup_nil⟩
  · next hblank =>
    rw [if_neg hblank]
    exact Json.readParts_of_requestOfText h

/-- Two texts give an operation the same parts but for the mapping and the table. -/
def SameBesideTarget (op : Operation) (text text' : String) : Prop :=
  ∀ part node, part ≠ .mapping → part ≠ .table →
    ((part, node) ∈ givenParts op text ↔ (part, node) ∈ givenParts op text')

/-- With the same table and mapping, such texts make the same request. -/
theorem withTarget_eq_of_sameBesideTarget (h : readRequest op text = .ok r)
    (h' : readRequest op text' = .ok r') (hsame : SameBesideTarget op text text') :
    r.withTarget table mapping = r'.withTarget table mapping := by
  obtain ⟨hread, hnodup⟩ := readParts_of_readRequest h
  obtain ⟨hread', hnodup'⟩ := readParts_of_readRequest h'
  have hpart (part : Json.Part) (hmapping : part ≠ .mapping) (htable : part ≠ .table) :
      Json.SameAt r r' part :=
    Json.sameAt_of_same_nodes hread hread' hnodup hnodup' fun node =>
      hsame part node hmapping htable
  have hdata : r.data = r'.data := hpart .data nofun nofun
  have hfilter : r.filter = r'.filter := hpart .filter nofun nofun
  have hselect : r.select = r'.select := hpart .select nofun nofun
  have horder : r.order = r'.order := hpart .order nofun nofun
  have hoffset : r.offset = r'.offset := hpart .offset nofun nofun
  have hcount : r.count = r'.count := hpart .count nofun nofun
  simp only [Request.withTarget, hdata, hfilter, hselect, horder, hoffset, hcount]

/-- **The project decides the target**: for a table of an accepted project and its mapping, no request
makes an operation fail for want of a table or a mapping or at the table name, and two requests that
differ in the mapping and the table they give make the same statement, or fail alike. -/
theorem project_decides_target {config table : String} {p : Project} {mapping : Mapping}
    (hproject : Project.ofText config = .ok p) (hmapping : p.mapping? table = some mapping)
    (b : Builder) (op : Operation) :
    (∀ text op' fault,
      (buildStatement b op text table mapping).result = .error (.notBuilt op' fault) →
        fault.isTarget = false) ∧
    ∀ text text' r r', readRequest op text = .ok r → readRequest op text' = .ok r' →
      SameBesideTarget op text text' →
        buildStatement b op text table mapping = buildStatement b op text' table mapping := by
  constructor
  · intro text op' fault h
    unfold buildStatement at h
    split at h
    · cases h
    · rw [Logged.result_mapError, mapError_eq_error_iff] at h
      obtain ⟨_, hbuild, heq⟩ := h
      obtain ⟨-, rfl⟩ := Failure.notBuilt.inj heq
      exact Builder.build_withTarget_isTarget_eq_false
        (Project.tableName_fault?_eq_none hproject hmapping) hbuild
  · intro text text' r r' h h' hsame
    simp only [buildStatement, h, h', withTarget_eq_of_sameBesideTarget h h' hsame]

/-- A request that names another table and declares no field makes the statement of one that does
neither. A request without data fails, and not at its target. -/
theorem project_decides_target_other_table :
    let mapping : Mapping := ⟨[("name", .string)]⟩
    let text := "\x7b\"data\":\x7b\"name\":\"Ann\"\x7d\x7d"
    let text' := "\x7b\"tableName\":\"mysql.user\",\"mapping\":\x7b\x7d,\"data\":\x7b\"name\":\"Ann\"\x7d\x7d"
    let statement := fun text => (buildStatement ⟨.mySql, .strict⟩ .insert text "users" mapping).result
    Project.ofText "[tables.users]\nname = 'string'" = .ok ⟨.strict, [("users", mapping)]⟩ ∧
      SameBesideTarget .insert text text' ∧
      statement text = .ok "INSERT INTO users SET \x60name\x60 = 'Ann'" ∧
      statement text' = .ok "INSERT INTO users SET \x60name\x60 = 'Ann'" ∧
      statement "" = .error (.notBuilt .insert (.missingArgument .data)) ∧
      (BuildError.missingArgument .data).isTarget = false := by
  intro mapping text text' statement
  have hproject : Project.ofText "[tables.users]\nname = 'string'" =
      .ok ⟨.strict, [("users", mapping)]⟩ := by
    simp only [mapping]
    cbv
  have hfound : (⟨.strict, [("users", mapping)]⟩ : Project).mapping? "users" = some mapping := rfl
  have houtline : Json.outline text =
      .object [(some "data", .object [(some "name", .string (some "Ann"))])] true := by
    simp only [text]
    cbv
  have houtline' : Json.outline text' =
      .object [(some "tableName", .string (some "mysql.user")), (some "mapping", .object []),
        (some "data", .object [(some "name", .string (some "Ann"))])] true := by
    simp only [text']
    cbv
  have hblank : Text.allBlank text = false := by decide
  have hblank' : Text.allBlank text' = false := by decide
  have hread : readRequest .insert text =
      .ok { Request.empty with data := some [("name", .text "Ann")] } := by
    simp only [readRequest, hblank, Json.requestOfText, houtline]
    rfl
  have hread' : readRequest .insert text' =
      .ok { Request.empty with
        data := some [("name", .text "Ann")]
        mapping := some ⟨[]⟩
        table := some "mysql.user" } := by
    simp only [readRequest, hblank', Json.requestOfText, houtline']
    rfl
  have hsame : SameBesideTarget .insert text text' := by
    have hgiven : givenParts .insert text =
        [(.data, .object [(some "name", .string (some "Ann"))])] := by
      simp only [givenParts, hblank, Json.givenParts, houtline]
      rfl
    have hgiven' : givenParts .insert text' =
        [(.table, .string (some "mysql.user")), (.mapping, .object []),
          (.data, .object [(some "name", .string (some "Ann"))])] := by
      simp only [givenParts, hblank', Json.givenParts, houtline']
      rfl
    intro part node hmapping htable
    simp [hgiven, hgiven', hmapping, htable]
  have hdecides := project_decides_target hproject hfound ⟨.mySql, .strict⟩ .insert
  have hequal := hdecides.2 text text' _ _ hread hread' hsame
  have hstatement : statement text = .ok "INSERT INTO users SET \x60name\x60 = 'Ann'" := by
    simp only [statement, buildStatement, hread]
    rfl
  have hmissing : statement "" = .error (.notBuilt .insert (.missingArgument .data)) := rfl
  exact ⟨hproject, hsame, hstatement, (congrArg Logged.result hequal).symm.trans hstatement,
    hmissing, hdecides.1 "" .insert _ hmissing⟩

end Cli

end TypedSql
