import Urgentry.GoLib

/-!
# Issue search: tokens, filters and clauses

`parser.go` and `sql.go`. The tokens of a search are folded into a `Filter`, and the filter becomes
a list of conditions on a group and its events, which the caller joins with `AND`.

The filter has one place for each key: a later token on the same key takes the place of an earlier
one. The six keys that can be negated have a second place for that; statuses to exclude, tags and
words are lists.

A condition is given here as what it says (`SearchClause`), with the SQL text that is written for it
(`SearchClause.text`) and its arguments. What it means for a group is `SearchClause.holds`, with
SQL's rule that a comparison with `NULL` does not hold. The functions of the database that stay
abstract are `LIKE` and the comparison of a number with a text (`SearchDb`). -/

namespace Urgentry.Search

/-! ## Tokens and filters -/

/-- `TokenType`. -/
inductive TokenType
  | text
  | keyValue
  | negatedKeyValue
  | has
  | notHas
  | is
  | notIs
deriving DecidableEq

/-- `Token`. -/
structure Token where
  type : TokenType
  key : String := ""
  value : String := ""
deriving DecidableEq

/-- The keys with a place for a value and a place for a value to exclude. -/
inductive Field
  | level
  | environment
  | release
  | eventType
  | platform
  | assigned
deriving DecidableEq

/-- The keys whose value is a comparison. -/
inductive SeenColumn
  | firstSeen
  | lastSeen
  | timesSeen
deriving DecidableEq

/-- `TagFilter`. -/
structure TagFilter where
  (key value : String)
deriving DecidableEq

/-- `Filter`: `value .level` is `Level`, `negValue .level` is `NegLevel`, and so on. -/
structure Filter where
  status : String := ""
  negatedStatuses : List String := []
  value : Field → String := fun _ => ""
  negValue : Field → String := fun _ => ""
  seen : SeenColumn → String := fun _ => ""
  bookmarked : String := ""
  tags : List TagFilter := []
  negTags : List TagFilter := []
  hasFields : List String := []
  notHasFields : List String := []
  terms : List String := []

/-- What a key stands for. -/
inductive Key
  | field (c : Field)
  | seen (c : SeenColumn)
  | bookmarks
  | tag
deriving DecidableEq

/-- The cases of `assignKeyValue`, on the key in lower case. -/
def keyOf : String → Key
  | "level" => .field .level
  | "release" => .field .release
  | "environment" | "env" => .field .environment
  | "event.type" | "type" => .field .eventType
  | "assigned" => .field .assigned
  | "platform" => .field .platform
  | "firstseen" | "first_seen" => .seen .firstSeen
  | "lastseen" | "last_seen" => .seen .lastSeen
  | "times_seen" | "timesseen" => .seen .timesSeen
  | "bookmarks" => .bookmarks
  | _ => .tag

section Parser

variable (lib : GoLib)

/-- The value as it is put into the filter. -/
def storedValue (c : Field) (value : String) : String :=
  match c with
  | .level | .eventType | .platform => lib.lower value
  | .release | .environment | .assigned => value

/-- `assignKeyValue`. The keys with a comparison and `bookmarks` do not look at the negation. -/
def assignKeyValue (f : Filter) (key value : String) (negated : Bool) : Filter :=
  match keyOf (lib.lower key) with
  | .field c =>
    if negated then { f with negValue := Function.update f.negValue c (storedValue lib c value) }
    else { f with value := Function.update f.value c (storedValue lib c value) }
  | .seen c => { f with seen := Function.update f.seen c value }
  | .bookmarks => { f with bookmarked := value }
  | .tag =>
    if negated then { f with negTags := f.negTags ++ [⟨key, value⟩] }
    else { f with tags := f.tags ++ [⟨key, value⟩] }

/-- `normalizeStatus`. -/
def normalizeStatus (raw : String) : String :=
  match lib.canonical raw with
  | "unresolved" | "open" => "unresolved"
  | "resolved" | "closed" => "resolved"
  | "ignored" => "ignored"
  | _ => ""

/-- One round of the loop of `ParseTokens`. -/
def assignToken (f : Filter) (tok : Token) : Filter :=
  match tok.type with
  | .is =>
    if normalizeStatus lib tok.value ≠ "" then
      { f with status := normalizeStatus lib tok.value } else f
  | .notIs =>
    if normalizeStatus lib tok.value ≠ "" then
      { f with negatedStatuses := f.negatedStatuses ++ [normalizeStatus lib tok.value] }
    else f
  | .has => { f with hasFields := f.hasFields ++ [lib.lower tok.key] }
  | .notHas => { f with notHasFields := f.notHasFields ++ [lib.lower tok.key] }
  | .keyValue => assignKeyValue lib f tok.key tok.value false
  | .negatedKeyValue => assignKeyValue lib f tok.key tok.value true
  | .text => { f with terms := f.terms ++ [tok.value] }

/-- `ParseTokens`. -/
def parseTokens (tokens : List Token) : Filter := tokens.foldl (assignToken lib) {}

end Parser

/-! ## Clauses -/

/-- The operators of a comparison. -/
inductive Comparison
  | ge
  | le
  | ne
  | gt
  | lt
  | eq
deriving DecidableEq

/-- The operator in SQL, which is also how a search writes it. -/
def Comparison.symbol : Comparison → String
  | ge => ">="
  | le => "<="
  | ne => "!="
  | gt => ">"
  | lt => "<"
  | eq => "="

/-- The value behind an operator, if the text starts with the operator and a value follows. -/
def valueAfter (raw : String) (op : Comparison) : Option String :=
  if op.symbol.toList <+: raw.toList then
    let val := GoText.trimSpace (String.ofList (raw.toList.drop op.symbol.toList.length))
    if val ≠ "" then some val else none
  else none

/-- `parseComparisonValue`. -/
def parseComparisonValue (raw : String) : Comparison × String :=
  (([.ge, .le, .ne, .gt, .lt, .eq] : List Comparison).findSome? fun op =>
    (valueAfter raw op).map (op, ·)).getD (.eq, raw)

/-- The columns of `hasFieldToColumn`. -/
inductive HasColumn
  | assignee
  | resolvedInRelease
deriving DecidableEq

/-- `hasFieldToColumn`. -/
def hasFieldToColumn : String → Option HasColumn
  | "assignee" | "assigned" => some .assignee
  | "release" => some .resolvedInRelease
  | _ => none

/-- A condition of a search. -/
inductive SearchClause
  | status (negated : Bool) (s : String)
  | field (c : Field) (negated : Bool) (v : String)
  | seen (c : SeenColumn) (op : Comparison) (val : String)
  | has (negated : Bool) (c : HasColumn)
  | tag (negated : Bool) (tf : TagFilter)
  | term (like : String)
deriving DecidableEq

section Sql

variable (lib : GoLib) (escapeLike : String → String)

/-- The value as it is bound. -/
def boundValue (c : Field) (v : String) : String :=
  match c with
  | .assigned => lib.lower v
  | _ => v

variable (f : Filter)

/-- The clauses of a key and of its negation. -/
def fieldClauses (c : Field) : List SearchClause :=
  (if f.value c ≠ "" then [.field c false (boundValue lib c (f.value c))] else []) ++
    if f.negValue c ≠ "" then [.field c true (boundValue lib c (f.negValue c))] else []

/-- The clause of a comparison. -/
def seenClauses (c : SeenColumn) : List SearchClause :=
  if f.seen c ≠ "" then
    [.seen c (parseComparisonValue (f.seen c)).1 (parseComparisonValue (f.seen c)).2]
  else []

/-- `ToSQL`. -/
def toSQL : List SearchClause :=
  (if f.status ≠ "" then [.status false f.status] else [])
    ++ f.negatedStatuses.map (.status true)
    ++ fieldClauses lib f .level
    ++ fieldClauses lib f .environment
    ++ fieldClauses lib f .release
    ++ fieldClauses lib f .eventType
    ++ fieldClauses lib f .platform
    ++ fieldClauses lib f .assigned
    ++ seenClauses f .firstSeen
    ++ seenClauses f .lastSeen
    ++ seenClauses f .timesSeen
    ++ f.hasFields.filterMap (fun field => (hasFieldToColumn field).map (.has false))
    ++ f.notHasFields.filterMap (fun field => (hasFieldToColumn field).map (.has true))
    ++ f.tags.map (.tag false)
    ++ f.negTags.map (.tag true)
    ++ f.terms.map fun term => .term ("%" ++ escapeLike term ++ "%")

end Sql

/-! ### The text of a clause -/

/-- The name of a column. -/
def SeenColumn.name : SeenColumn → String
  | firstSeen => "first_seen"
  | lastSeen => "last_seen"
  | timesSeen => "times_seen"

/-- The name of a column. -/
def HasColumn.name : HasColumn → String
  | assignee => "assignee"
  | resolvedInRelease => "resolved_in_release"

/-- The condition on an event, or on the group, that a key compares with a value. -/
def fieldText (dot : String) (c : Field) (negated : Bool) : String :=
  let symbol := if negated then "!=" else "="
  let exists_ (condition : String) : String :=
    (if negated then "NOT EXISTS (\n\t\t\t" else "EXISTS (\n\t\t\t")
      ++ "SELECT 1 FROM events e\n\t\t\tWHERE e.group_id = " ++ dot ++ "id AND " ++ condition
      ++ " = ?\n\t\t)"
  match c with
  | .level => "LOWER(COALESCE(" ++ dot ++ "level, '')) " ++ symbol ++ " ?"
  | .assigned => "LOWER(COALESCE(" ++ dot ++ "assignee, '')) " ++ symbol ++ " ?"
  | .environment => exists_ "e.environment"
  | .release => exists_ "e.release"
  | .eventType => exists_ "LOWER(COALESCE(e.event_type, 'error'))"
  | .platform => exists_ "LOWER(COALESCE(e.platform, ''))"

/-- The text of a clause, behind the alias of the table of groups. -/
def SearchClause.text (dot : String) : SearchClause → String
  | status negated _ => dot ++ (if negated then "status != ?" else "status = ?")
  | field c negated _ => fieldText dot c negated
  | seen c op _ => dot ++ c.name ++ " " ++ op.symbol ++ " ?"
  | has false c => "COALESCE(" ++ dot ++ c.name ++ ", '') != ''"
  | has true c => "(" ++ dot ++ c.name ++ " IS NULL OR " ++ dot ++ c.name ++ " = '')"
  | tag negated _ => (if negated then "NOT EXISTS (" else "EXISTS (")
      ++ "\n\t\t\tSELECT 1 FROM events e, json_each(e.tags_json) jt\n\t\t\tWHERE e.group_id = "
      ++ dot ++ "id\n\t\t\t  AND e.tags_json IS NOT NULL AND e.tags_json != ''\n\t\t\t  "
      ++ "AND jt.key = ? AND jt.value = ?\n\t\t)"
  | term _ =>
    "(" ++ dot ++ "title LIKE ? ESCAPE '\\' OR " ++ dot ++ "culprit LIKE ? ESCAPE '\\' OR "
      ++ "EXISTS (\n\t\t\tSELECT 1 FROM events e\n\t\t\tWHERE e.group_id = " ++ dot
      ++ "id\n\t\t\t  AND (e.title LIKE ? ESCAPE '\\' OR e.message LIKE ? ESCAPE '\\' OR "
      ++ "e.culprit LIKE ? ESCAPE '\\')\n\t\t))"

/-- The arguments of a clause. -/
def SearchClause.args : SearchClause → List String
  | status _ s => [s]
  | field _ _ v => [v]
  | seen _ _ val => [val]
  | has _ _ => []
  | tag _ tf => [tf.key, tf.value]
  | term like => [like, like, like, like, like]

/-! ## Groups -/

/-- A row of `events`, as far as a search reads it; the tags are what `json_each` gives. -/
structure EventState where
  environment : Option String := none
  release : Option String := none
  eventType : Option String := none
  platform : Option String := none
  tags : List (String × String) := []
  title : Option String := none
  message : Option String := none
  culprit : Option String := none

/-- A row of `groups` with its events. -/
structure GroupState where
  status : Option String := none
  level : Option String := none
  assignee : Option String := none
  resolvedInRelease : Option String := none
  title : Option String := none
  culprit : Option String := none
  firstSeen : Option String := none
  lastSeen : Option String := none
  timesSeen : Option ℤ := none
  events : List EventState := []

/-- The functions of the database that stay abstract. -/
structure SearchDb where
  /-- `text LIKE pattern ESCAPE '\'`. -/
  like : String → String → Bool
  /-- A number against a text that is bound as an argument. -/
  compareNumber : ℤ → String → Ordering

/-- `LOWER`, which is for ASCII only. -/
def sqlLower (s : String) : String := String.ofList (s.toList.map Char.toLower)

/-- What a key compares with a value, in an event. -/
def eventValue (c : Field) (e : EventState) : Option String :=
  match c with
  | .environment => e.environment
  | .release => e.release
  | .eventType => some (sqlLower (e.eventType.getD "error"))
  | .platform => some (sqlLower (e.platform.getD ""))
  | .level | .assigned => none

/-- A group has the value of a key. -/
def GroupState.fieldMatches (g : GroupState) (c : Field) (v : String) : Bool :=
  match c with
  | .level => sqlLower (g.level.getD "") = v
  | .assigned => sqlLower (g.assignee.getD "") = v
  | c => g.events.any fun e => eventValue c e = some v

/-- The comparison of a column with a text; none with `NULL`. -/
def GroupState.compareSeen (db : SearchDb) (g : GroupState) (c : SeenColumn) (val : String) :
    Option Ordering :=
  match c with
  | .firstSeen => g.firstSeen.map (compare · val)
  | .lastSeen => g.lastSeen.map (compare · val)
  | .timesSeen => g.timesSeen.map (db.compareNumber · val)

/-- An operator holds of a comparison. -/
def Comparison.holds : Comparison → Ordering → Bool
  | ge, o => o ≠ .lt
  | le, o => o ≠ .gt
  | ne, o => o ≠ .eq
  | gt, o => o = .gt
  | lt, o => o = .lt
  | eq, o => o = .eq

/-- The column of a presence check. -/
def GroupState.presence (g : GroupState) : HasColumn → String
  | .assignee => g.assignee.getD ""
  | .resolvedInRelease => g.resolvedInRelease.getD ""

/-- **What a clause says** of a group. -/
def SearchClause.holds (db : SearchDb) (g : GroupState) : SearchClause → Bool
  | status false s => g.status = some s
  | status true s => g.status.any (· ≠ s)
  | field c negated v => g.fieldMatches c v != negated
  | seen c op val => (g.compareSeen db c val).any op.holds
  | has negated c => (g.presence c ≠ "") != negated
  | tag negated tf => (g.events.any fun e => e.tags.contains (tf.key, tf.value)) != negated
  | term like => g.title.any (db.like like) || g.culprit.any (db.like like) ||
      g.events.any fun e =>
        e.title.any (db.like like) || e.message.any (db.like like) || e.culprit.any (db.like like)

/-- A group satisfies all the clauses of a filter. -/
def Satisfies (lib : GoLib) (escapeLike : String → String) (db : SearchDb) (f : Filter)
    (g : GroupState) : Prop :=
  ∀ clause ∈ toSQL lib escapeLike f, clause.holds db g = true
deriving Decidable

end Urgentry.Search
