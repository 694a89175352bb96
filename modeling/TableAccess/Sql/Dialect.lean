import TableAccess.Text.CharClass

/-! The five dialects and the decisions in which they differ. Every decision is one
function of the dialect, named for what it allows, so that the lexer and the grammar
read as one language with a few switches. -/
namespace TableAccess.Sql
open TableAccess.Text

/-- The dialects a statement may be written in. -/
inductive Dialect where
  | generic | mysql | postgresql | sqlite | mssql
deriving DecidableEq, Repr, Inhabited

namespace Dialect

/-- Characters that open a quoted identifier. -/
def opensIdentifier : Dialect → Char → Bool
  | .generic, c => c == '"' || c == '\x60'
  | .mysql, c => c == '\x60'
  | .postgresql, c => c == '"'
  | .sqlite, c => c == '"' || c == '\x60' || c == '['
  | .mssql, c => c == '"' || c == '['

/-- Characters an unquoted word may start with. -/
def startsWord : Dialect → Char → Bool
  | .generic, c => isLetter c || c == '_' || c == '#' || c == '@'
  | .mysql, c => isAsciiLetter c || c == '_' || c == '$' || c == '@' || 0x80 ≤ c.toNat
  | .postgresql, c => isAsciiLetter c || c == '_' || 0x80 ≤ c.toNat
  | .sqlite, c => isAsciiLetter c || c == '_' || (0x7f ≤ c.toNat && c.toNat ≤ 0xffff)
  | .mssql, c => isLetter c || c == '_' || c == '#' || c == '@'

/-- Characters an unquoted word may go on with. -/
def continuesWord (d : Dialect) (c : Char) : Bool :=
  match d with
  | .generic | .mssql =>
    isLetter c || isAsciiDigit c || c == '@' || c == '$' || c == '#' || c == '_'
  | .mysql => d.startsWord c || isAsciiDigit c
  | .postgresql => d.startsWord c || isAsciiDigit c || c == '$'
  | .sqlite => d.startsWord c || isAsciiDigit c

/-- Byte strings such as `b'0101'`. -/
def hasByteStrings : Dialect → Bool
  | .generic | .mysql | .postgresql => true
  | _ => false

/-- Raw strings such as `r'a\b'`. -/
def hasRawStrings : Dialect → Bool
  | .generic => true
  | _ => false

/-- Strings with escapes such as `E'a\n'`. -/
def hasEscapeStrings : Dialect → Bool
  | .generic | .postgresql => true
  | _ => false

/-- Strings with code points such as `U&'\0061'`. -/
def hasUnicodeStrings : Dialect → Bool
  | .generic | .postgresql => true
  | _ => false

/-- Whether a backslash escapes the next character of an ordinary string. -/
def backslashEscapes : Dialect → Bool
  | .mysql => true
  | _ => false

/-- Whether an escaped wildcard of a pattern keeps its backslash. -/
def keepsWildcardEscapes : Dialect → Bool
  | .mysql => true
  | _ => false

/-- Whether adjacent string literals are one literal. -/
def joinsStrings : Dialect → Bool
  | .mysql => true
  | _ => false

/-- Whether a comment runs from `#` to the end of the line. -/
def hasHashComments : Dialect → Bool
  | .mysql => true
  | _ => false

/-- Whether `--` opens a comment only before a blank. -/
def commentNeedsBlank : Dialect → Bool
  | .mysql => true
  | _ => false

/-- Whether a carriage return ends a line comment. -/
def returnEndsComment : Dialect → Bool
  | .postgresql => true
  | _ => false

/-- Whether block comments nest. -/
def nestsComments : Dialect → Bool
  | .generic | .postgresql | .mssql => true
  | _ => false

/-- Whether the content of a comment that opens with an exclamation mark is read as text. -/
def readsCommentHints : Dialect → Bool
  | .mysql => true
  | _ => false

/-- Whether an identifier may start with digits. -/
def namesStartWithDigits : Dialect → Bool
  | .mysql => true
  | _ => false

/-- Whether an underscore may separate the digits of a number. -/
def digitSeparators : Dialect → Bool
  | .postgresql => true
  | _ => false

/-- Whether a dollar sign always opens a parameter and never a quoted string. -/
def dollarIsParameter : Dialect → Bool
  | .sqlite => true
  | _ => false

/-- Whether the operators on geometric values exist, and with them the question
mark as an operator rather than a parameter. -/
def hasGeometry : Dialect → Bool
  | .postgresql => true
  | _ => false

/-- Characters that extend an operator to one of its own. -/
def continuesOperator : Dialect → Char → Bool
  | .postgresql, c => "+-*/<>=~!@#%^&|`?".toList.contains c
  | _, _ => false

/-- The relative strength of the operator classes. -/
inductive Strength where
  | period | doubleColon | collate | zone | product | sum | xor | ampersand | caret | pipe
  | between | equality | like | test | other | negation | conjunction | disjunction
deriving DecidableEq, Repr

/-- How tightly an operator class binds; a higher rank binds tighter. -/
def rank : Dialect → Strength → Nat
  | .postgresql, strength =>
    match strength with
    | .period => 200
    | .doubleColon => 140
    | .collate => 120
    | .zone => 110
    | .caret => 100
    | .product => 90
    | .sum => 80
    | .xor => 75
    | .ampersand | .pipe | .other => 70
    | .between | .like => 60
    | .equality => 50
    | .test => 40
    | .negation => 30
    | .conjunction => 20
    | .disjunction => 10
  | _, strength =>
    match strength with
    | .period => 100
    | .doubleColon => 50
    | .collate => 42
    | .zone => 41
    | .product => 40
    | .sum => 30
    | .xor => 24
    | .ampersand => 23
    | .caret => 22
    | .pipe => 21
    | .between | .equality => 20
    | .like => 19
    | .test => 17
    | .other => 16
    | .negation => 15
    | .conjunction => 10
    | .disjunction => 5

/-- Whether `TRUE` and `FALSE` are literals. -/
def hasBooleans : Dialect → Bool
  | .mssql => false
  | _ => true

/-- Whether `NOTNULL` is a test after an expression. -/
def hasNotNullTest : Dialect → Bool
  | .postgresql | .sqlite => true
  | _ => false

/-- Whether two ampersands mean a conjunction. -/
def hasDoubleAmpersand : Dialect → Bool
  | .mysql => true
  | _ => false

/-- Whether two ampersands compare for overlap. -/
def hasOverlapOperator : Dialect → Bool
  | .postgresql | .generic => true
  | _ => false

/-- Whether bits can be shifted. -/
def hasShifts : Dialect → Bool
  | .postgresql | .generic => true
  | _ => false

/-- Whether an operator may be written with its schema. -/
def hasNamedOperators : Dialect → Bool
  | .postgresql | .generic => true
  | _ => false

/-- Whether the value of `INTERVAL` is a whole expression and its unit is required. -/
def intervalNeedsUnit : Dialect → Bool
  | .mysql => true
  | _ => false

/-- Whether the type `INTERVAL` may name its fields. -/
def hasIntervalFields : Dialect → Bool
  | .postgresql | .generic => true
  | _ => false

/-- Whether the user's name and the like are calls without parentheses. -/
def hasUserFunctions : Dialect → Bool
  | .postgresql | .generic => true
  | _ => false

/-- Whether the target type of `CONVERT` stands first. -/
def convertsTypeFirst : Dialect → Bool
  | .mssql => true
  | _ => false

/-- Whether `TRY_CONVERT` exists. -/
def hasTryConvert : Dialect → Bool
  | .mssql | .generic => true
  | _ => false

/-- Whether columns can be searched with `MATCH ... AGAINST`. -/
def hasFullTextSearch : Dialect → Bool
  | .mysql | .generic => true
  | _ => false

/-- Structures, maps and dictionaries as literals. -/
def hasStructures : Dialect → Bool
  | .generic => true
  | _ => false

/-- Whether brackets after a type make it an array. -/
def hasBracketArrays : Dialect → Bool
  | .postgresql | .generic => true
  | _ => false

/-- Whether the list of `IN` may be empty. -/
def allowsEmptyInList : Dialect → Bool
  | .sqlite => true
  | _ => false

/-- Whether the characters to trim may follow after a comma. -/
def trimsAfterComma : Dialect → Bool
  | .generic | .sqlite => true
  | _ => false

/-- Whether any word may name the field to extract. -/
def extractsAnyField : Dialect → Bool
  | .postgresql | .generic => true
  | _ => false

/-- Whether a comma may stand before the value to extract from. -/
def extractsAfterComma : Dialect → Bool
  | .generic => true
  | _ => false

/-- Whether the outer side of a join can be marked at its columns. -/
def hasOuterJoinMark : Dialect → Bool
  | .mssql => true
  | _ => false

/-- Whether an argument's name may be any expression. -/
def labelsArguments : Dialect → Bool
  | .postgresql | .mssql => true
  | _ => false

/-- Whether this symbol may stand between an argument's name and its value. -/
def namesArgumentWith : Dialect → String → Bool
  | .mssql, symbol => symbol == ":"
  | .postgresql, symbol => symbol == "=>" || symbol == ":"
  | .generic, symbol => symbol == "=>" || symbol == ":="
  | _, symbol => symbol == "=>"

/-- Whether a call may have a list of parameters before its arguments. -/
def hasParametricCalls : Dialect → Bool
  | .generic => true
  | _ => false

/-- Whether a call may filter the rows that it sees. -/
def filtersCalls : Dialect → Bool
  | .generic | .postgresql | .sqlite => true
  | _ => false

/-- Whether the treatment of nulls may stand among the arguments. -/
def hasNullsArgument : Dialect → Bool
  | .generic => true
  | _ => false

/-- Whether a bound may restrict the rows inside a call. -/
def hasBoundArgument : Dialect → Bool
  | .generic => true
  | _ => false

/-- Whether a separator may end the arguments of a call. -/
def hasSeparatorArgument : Dialect → Bool
  | .generic | .mysql => true
  | _ => false

/-- Whether sets of grouping keys have a syntax of their own. -/
def hasGroupingSets : Dialect → Bool
  | .generic | .postgresql => true
  | _ => false

/-- Whether words such as `WITH ROLLUP` may follow the grouping keys. -/
def hasGroupModifiers : Dialect → Bool
  | .generic | .mysql => true
  | _ => false

/-- Whether a selection may start with its sources. -/
def selectsFromFirst : Dialect → Bool
  | .generic => true
  | _ => false

/-- Whether a select list may be empty. -/
def allowsEmptySelect : Dialect → Bool
  | .generic | .postgresql => true
  | _ => false

/-- Whether a comma may end a select list. -/
def trailingSelectComma : Dialect → Bool
  | .generic => true
  | _ => false

/-- Whether an equation in a select list names its right side. -/
def namesByEquation : Dialect → Bool
  | .mssql => true
  | _ => false

/-- Whether words may follow a wildcard to leave out or replace columns. -/
def hasWildcardOptions : Dialect → Bool
  | .generic => true
  | _ => false

/-- Whether a limit may be given as an offset, a comma and a count. -/
def limitsWithComma : Dialect → Bool
  | .generic | .mysql | .sqlite => true
  | _ => false

/-- Whether clauses of analytical stores are read. -/
def hasAnalyticalClauses : Dialect → Bool
  | .generic => true
  | _ => false

/-- Whether a named window may stand for another one as it is. -/
def windowsByName : Dialect → Bool
  | .generic => true
  | _ => false

/-- Whether hierarchies can be walked. -/
def walksHierarchies : Dialect → Bool
  | .generic | .mssql => true
  | _ => false

/-- Whether a cross join may have a condition. -/
def crossJoinsOn : Dialect → Bool
  | .mysql => true
  | _ => false

/-- Whether parentheses may surround a single source. -/
def parenthesisesSources : Dialect → Bool
  | .generic => true
  | _ => false

/-- Whether rows of values may be a source without parentheses. -/
def hasValuesSource : Dialect → Bool
  | .generic => true
  | _ => false

/-- Whether arrays can be unfolded into a source. -/
def unnests : Dialect → Bool
  | .generic | .postgresql => true
  | _ => false

/-- Whether partitions of a table can be selected. -/
def selectsPartitions : Dialect → Bool
  | .generic | .mysql => true
  | _ => false

/-- Whether a table can be read as of a time. -/
def readsVersions : Dialect → Bool
  | .mssql => true
  | _ => false

/-- Whether indexes can be suggested for a table. -/
def hintsIndexes : Dialect → Bool
  | .mysql => true
  | _ => false

/-- Whether patterns of rows can be recognised. -/
def recognisesRows : Dialect → Bool
  | .generic => true
  | _ => false

/-- Whether the default schema may be left out between two periods. -/
def allowsDoublePeriod : Dialect → Bool
  | .mssql => true
  | _ => false

/-- Whether the materialisation of a named query can be asked for. -/
def materialises : Dialect → Bool
  | .postgresql => true
  | _ => false

/-- Whether a row of values may be empty. -/
def allowsEmptyRow : Dialect → Bool
  | .mysql => true
  | _ => false

/-- Whether a target table may have an alias. -/
def aliasesTarget : Dialect → Bool
  | .postgresql => true
  | _ => false

/-- Whether columns may be set in an insertion. -/
def insertsWithSet : Dialect → Bool
  | .mysql => true
  | _ => false

/-- Whether an insertion may have a priority, ignore errors, and name its new row. -/
def hasInsertModifiers : Dialect → Bool
  | .generic | .mysql => true
  | _ => false

/-- Whether rows can be replaced by a statement of its own. -/
def replaces : Dialect → Bool
  | .generic | .mysql | .sqlite => true
  | _ => false

/-- Whether the word `FROM` may be missing from a deletion; the word before it is then
the table. -/
def deletesWithoutFrom : Dialect → Bool
  | .generic => true
  | _ => false

/-- Whether a column may be declared without a type. -/
def omitsColumnTypes : Dialect → Bool
  | .sqlite => true
  | _ => false

/-- Whether indexes may be declared among the columns of a table. -/
def declaresIndexes : Dialect → Bool
  | .generic | .mysql => true
  | _ => false

/-- Whether a computed column must say that it is stored. -/
def storesComputed : Dialect → Bool
  | .postgresql => true
  | _ => false

/-- Whether this word may open an option of a column. -/
def hasColumnOption : Dialect → String → Bool
  | .generic, _ => true
  | .mysql, word => ["AUTO_INCREMENT", "ON", "AS", "SRID"].contains word
  | .sqlite, word => ["AUTOINCREMENT", "ASC", "DESC", "AS", "ON"].contains word
  | .mssql, word => word == "IDENTITY"
  | .postgresql, _ => false

/-- Whether a selection may fill a new table without `AS`. -/
def fillsTablesDirectly : Dialect → Bool
  | .mysql => true
  | _ => false

/-- Whether the rows of a table may be spread over partitions by a key. -/
def partitionsTables : Dialect → Bool
  | .generic | .postgresql => true
  | _ => false

/-- Whether words such as `IF` cannot name a column of a result. -/
def reservesBranches : Dialect → Bool
  | .mssql => true
  | _ => false

/-- Whether words such as `USE` cannot name a table. -/
def reservesIndexHints : Dialect → Bool
  | .mysql => true
  | _ => false

end Dialect
end TableAccess.Sql
