/-! The tree of a parsed statement. Every operator and every special syntax is a kind of expression of its
own, with a field for each expression that it takes; the words around these are plain data. An argument with
a name, a key to sort by and a window stand where expressions do, and are kinds of expressions too. Parts of
a query in which no expression is kept apart (hints, sampling and the like) are written text. -/
namespace TableAccess.Sql

/-- An identifier and the quote it was written with. -/
structure Ident where
  value : String
  quote : Option Char
deriving DecidableEq, Repr, Inhabited

/-- A name in parts, such as a schema and a table. -/
abbrev Name := List Ident

/-- A column of an alias, with its type where one is declared. -/
structure AliasColumn where
  name : Ident
  dataType : Option String
deriving DecidableEq, Repr, Inhabited

/-- An alias of a table, and whether `AS` introduced it. -/
structure Alias where
  explicit : Bool
  name : Ident
  columns : List AliasColumn
deriving DecidableEq, Repr, Inhabited

/-- The pattern matching operators. -/
inductive LikeOperator where
  | like | ilike | similarTo | rlike | regexp
deriving DecidableEq, Repr

/-- Which comparisons of a quantified one must hold. -/
inductive Quantifier where
  | any | some | all
deriving DecidableEq, Repr

/-- The spellings of a type conversion. -/
inductive CastSpelling where
  | cast | tryCast | safeCast | doubleColon
deriving DecidableEq, Repr

/-- What a conversion in call form names beside its value. -/
inductive ConversionTarget where
  | charset (name : Name)
  | type (text : String)
  | typeWithCharset (text : String) (charset : Name)
  | typeFirst (text : String)
deriving DecidableEq, Repr

/-- What ties the two sides of a join together, its condition apart. -/
inductive JoinTie where
  | free
  | natural
  | on
  | shared (columns : List Name)
deriving DecidableEq, Repr

/-- The column or columns that an assignment writes. -/
inductive Target where
  | column (name : Name)
  | columns (names : List Name)
deriving DecidableEq, Repr

/-- What an insertion does where a row exists already; the columns of a conflict are
those that show it. -/
inductive UpsertShape where
  | duplicateKey
  | nothing (columns : Option (List Ident))
  | update (columns : Option (List Ident))
deriving DecidableEq, Repr

/-- Which rows of a selection count as repeated. -/
inductive Repetition where
  | kept
  | dropped
  | droppedOn
deriving DecidableEq, Repr

/-- How many rows a query gives; the expressions are the count, the offset and the keys
within which it counts, as far as they are present. -/
inductive LimitShape where
  | unlimited
  | rows (hasCount hasOffset : Bool) (words : String)
  | comma
deriving DecidableEq, Repr

/-- How the rows of a query are ordered, its keys apart. -/
inductive OrderShape where
  | unordered
  | keys (interpolation : String)
deriving DecidableEq, Repr

mutual

/-- An expression, or what stands where one does. -/
inductive Expr where
  | name (ident : Ident)
  | path (parts : Name)
  | literal (text : String)
  /-- A literal after its type. -/
  | typed (text : String)
  | wildcard (options : String)
  | qualifiedWildcard (parts : Name) (options : String)
  /-- Parts that are taken from a value, one after the other. -/
  | access (root : Expr) (chain : List Selector)
  /-- An expression in parentheses. -/
  | nested (inner : Expr)
  /-- A test such as `IS NOT NULL`. -/
  | test (operand : Expr) (words : String)
  | outerJoin (column : Expr)
  | prior (operand : Expr)
  /-- An operator in front of its operand. -/
  | before (operator : String) (spaced : Bool) (operand : Expr)
  /-- An operator behind its operand. -/
  | behind (operand : Expr) (operator : String)
  | cast (spelling : CastSpelling) (operand : Expr) (type : String) (format : Option String)
  | extract (part : String) (comma : Bool) (operand : Expr)
  /-- A number rounded up or down, and to what. -/
  | rounding (word : String) (operand : Expr) (detail : String)
  | collate (operand : Expr) (collation : Name)
  /-- A value of a structure under a name. -/
  | named (value : Expr) (ident : Ident)
  /-- A string after its character set. -/
  | introduced (charset : Ident) (value : Expr)
  | interval (amount : Expr) (qualifier : String)
  | distinctFrom (left : Expr) (negated : Bool) (right : Expr)
  | binary (left : Expr) (operator : String) (right : Expr)
  /-- A comparison with some or all values; the right side may bring its own parentheses. -/
  | quantified (left : Expr) (operator : String) (quantifier : Quantifier) (parenthesised : Bool)
      (right : Expr)
  | like (operand : Expr) (negated : Bool) (operator : LikeOperator) (any : Bool) (pattern : Expr)
      (escape : Option String)
  | atTimeZone (time zone : Expr)
  | position (sought searched : Expr)
  | inList (operand : Expr) (negated : Bool) (items : List Expr)
  | inSubquery (operand : Expr) (negated : Bool) (query : Query)
  | inUnnest (operand : Expr) (negated : Bool) (array : Expr)
  | between (operand : Expr) (negated : Bool) (low high : Expr)
  | convert (tries : Bool) (operand : Expr) (target : ConversionTarget) (styles : List Expr)
  | substring (short commas : Bool) (whole : Expr) (start length : Option Expr)
  /-- A text without certain ends: what is trimmed stands before the text, or a list of characters after
  it. -/
  | trim (side : Option String) (whole : Expr) (what : Option Expr) (characters : List Expr)
  | overlay (whole replacement start : Expr) (length : Option Expr)
  | call (callee : Name) (braces : Bool) (parameters arguments : Arguments) (nulls : Option String)
      (filter window : Option Expr) (within : List Expr)
  | case (operand : Option Expr) (branches : List Branch) (otherwise : Option Expr)
  | exists (negated : Bool) (query : Query)
  | subquery (query : Query)
  /-- Sets of grouping keys; single keys may stand without parentheses. -/
  | sets (word : String) (bareSingles : Bool) (sets : List (List Expr))
  | tuple (items : List Expr)
  | struct (fields : List String) (values : List Expr)
  | array (spelled : Bool) (elements : List Expr)
  | dictionary (members : List Member)
  | map (entries : List Entry)
  /-- A search for words in columns. -/
  | search (columns : List Name) (against : String)
  | memberOf (value array : Expr)
  /-- An argument after its name. -/
  | namedArgument (ident : Ident) (operator : String) (value : Expr)
  /-- An argument after an expression that names it. -/
  | labelledArgument (label : Expr) (operator : String) (value : Expr)
  /-- A key to sort by. -/
  | sorted (key : Expr) (direction : String) (fill : Option Fill)
  | window (base : Option Ident) (partition order : List Expr) (frame : Option WindowFrame)
  /-- A window that is defined elsewhere. -/
  | windowNamed (ident : Ident)
  | windowDefinition (ident : Ident) (window : Expr)

/-- What is taken from a value: what stands behind a period, an element, or a range of elements. -/
inductive Selector where
  | field (part : Expr)
  | element (index : Expr)
  | slice (lower upper stride : Option Expr)

/-- A branch of a case expression. -/
structure Branch where
  condition : Expr
  result : Expr

/-- A member of a dictionary. -/
structure Member where
  key : Ident
  value : Expr

/-- An entry of a map. -/
structure Entry where
  key : Expr
  value : Expr

/-- What stands between the parentheses of a call; a query brings none of its own. -/
inductive Arguments where
  | absent
  | query (query : Query)
  | list (duplicates : Option String) (items : List Expr) (clauses : List ArgumentClause)

/-- What may follow the arguments of a call inside its parentheses. -/
inductive ArgumentClause where
  | orderBy (keys : List Expr)
  | limit (count : Expr)
  | having (kind : String) (bound : Expr)
  /-- What a list that grows too long ends with. -/
  | overflow (filler : Option Expr) (counted : Bool)
  | words (text : String)

/-- How gaps between sorted values are filled. -/
structure Fill where
  start : Option Expr
  finish : Option Expr
  step : Option Expr

/-- The frame of a window. -/
structure WindowFrame where
  unit : String
  start : FrameBound
  finish : Option FrameBound

/-- The bound of a window frame; without a number of rows it has no limit. -/
inductive FrameBound where
  | currentRow
  | preceding (rows : Option Expr)
  | following (rows : Option Expr)

/-- A query with everything around its body. -/
structure Query where
  isRecursive : Bool
  ctes : List Cte
  body : Body
  orderShape : OrderShape
  order : List Expr
  limitShape : LimitShape
  limits : List Expr
  suffix : String

/-- One named query. -/
structure Cte where
  name : Ident
  columns : List AliasColumn
  materialized : Option String
  query : Query
  source : Option Ident

/-- The body of a query. -/
inductive Body where
  | select (select : Select)
  | query (query : Query)
  | operation (left : Body) (operator : String) (right : Body)
  | values (keyword rowWord : String) (sizes : List Nat) (cells : List Expr)
  | table (schema : Option String) (name : String)
  | insertion (insertion : Insertion)
  | update (update : Update)
  | deletion (deletion : Deletion)
  | merge

/-- A selection of rows. -/
structure Select where
  fromFirst : Bool
  hasSelect : Bool
  repetition : Repetition
  distinctOn : List Expr
  top : String
  items : List SelectItem
  into : String
  tables : List JoinedTable
  views : String
  prewhere : Option Expr
  condition : Option Expr
  groupsAll : Bool
  group : List Expr
  groupModifiers : String
  cluster : List Expr
  distribute : List Expr
  sort : List Expr
  having : Option Expr
  windows : List Expr
  qualify : Option Expr
  windowsFirst : Bool
  /-- The start of a walk along a hierarchy and its relationships, where there is one. -/
  hierarchy : List Expr

/-- One item of a select list. -/
structure SelectItem where
  value : Expr
  aliasName : Option Ident

/-- A source of rows with the joins that follow it. -/
structure JoinedTable where
  relation : Relation
  joins : List Join

/-- A source of rows. Plain tables keep the words before and after their alias. -/
inductive Relation where
  | table (name : Name) (before : String) (aliasName : Option Alias) (after : String)
  | derived (isLateral : Bool) (query : Query) (aliasName : Option Alias)
  | nested (joined : JoinedTable) (aliasName : Option Alias)
  | unnest (arrays : List Expr) (ordinality : Bool) (aliasName : Option Alias) (offset : String)
  | tableFunction (call : Expr) (aliasName : Option Alias)
  | other (text : String) (aliasName : Option Alias)

/-- One join. -/
structure Join where
  words : String
  relation : Relation
  matching : Option Expr
  tie : JoinTie
  condition : Option Expr

/-- A new value for one or several columns. -/
structure Assignment where
  target : Target
  value : Expr

/-- A statement that adds rows. -/
structure Insertion where
  words : String
  table : Name
  aliasName : Option Ident
  columns : List Ident
  source : Option Query
  assignments : List Assignment
  rowAlias : Option Name
  upsert : Option UpsertShape
  upsertAssignments : List Assignment
  upsertCondition : Option Expr
  returning : List SelectItem

/-- A statement that changes the columns of rows. -/
structure Update where
  words : String
  table : JoinedTable
  sourcesFirst : Bool
  sources : List JoinedTable
  assignments : List Assignment
  condition : Option Expr
  returning : List SelectItem
  limit : Option Expr

/-- A statement that removes rows. -/
structure Deletion where
  tables : List Name
  hasFrom : Bool
  sources : List JoinedTable
  hasOthers : Bool
  others : List JoinedTable
  condition : Option Expr
  returning : List SelectItem
  order : List Expr
  limit : Option Expr

end

instance : Inhabited Expr := ⟨.wildcard ""⟩

/-- A statement that declares a table: its name, the columns in its column list, and
the query that fills it. -/
structure TableDefinition where
  name : Name
  columns : List Ident
  query : Option Query

/-- A statement. Those that neither read nor change rows are told apart only where
the grammar needs it. -/
inductive Statement where
  | query (query : Query)
  | insertion (insertion : Insertion)
  | update (update : Update)
  | deletion (deletion : Deletion)
  | createTable (definition : TableDefinition)
  | explanation
  | other

end TableAccess.Sql
