/-
Why an operation fails. Each error is a cause with its data; `Error.message` alone holds the wording.

`Misconfigured`, `Undecodable` and `Invalid` are the causes of configuration, decode and validation errors. The other
errors carry what the server or the caller gave.
-/
import SqlAccess.Numeral.Binary64
import SqlAccess.Time.Duration
import SqlAccess.Receipt

namespace SqlAccess

inductive Misconfigured where
  | unreadable
  | typeMissing (group : Text)
  | keysMissing (group : Text) (keys : List Text)
  | badSetting (group key value : Text)
  | unknownConnection (name : Text)
  | unknownType (driver group : Text)
  | other (message : Text)
  deriving DecidableEq, Repr

/-- why the text of a column is not of the wanted kind -/
inductive Unreadable where
  | integer (fault : Integer.Fault)
  | float (fault : Binary64.Fault)
  | notBoolean
  | noCharacter
  | manyCharacters
  | other (message : Text)
  deriving DecidableEq, Repr

/-- why a column of a row cannot be read -/
inductive Undecodable where
  | noSuchColumn
  | unexpectedNull
  | unreadable (value : Text) (fault : Unreadable)
  | other (message : Text)
  deriving DecidableEq, Repr

/-- what makes a statement, a name or a value unusable -/
inductive Invalid where
  | emptyIdentifier
  | nulInIdentifier
  | starNotLast (path : Text)
  | expectedDot (found : Char)
  | trailingDot
  | unclosedQuote
  | emptyQuoted
  | badCharacter (found : Char) (path : Text)
  | emptySegment
  | starTable (name : Text)
  | unmatchedClose (position : Nat)
  | emptyGroup (position : Nat)
  | groupsLeftOpen (count : Nat)
  | boundsNeeded (operator column : Text)
  | onBeforeJoin
  | usingBeforeJoin
  | columnsDiffer
  | insertWithoutTable
  | insertWithoutColumns
  | insertWithoutRows
  | rowWidth (row values columns : Nat)
  | updateWithoutTable
  | updateWithoutColumns
  | deleteWithoutTable
  | unknownKind
  | nulInLiteral
  | nulForServer
  | noRows (receipt : Receipt)
  | other (message : Text)
  deriving DecidableEq, Repr

inductive Error where
  | configuration (cause : Misconfigured)
  | connection (code message : Text)
  | query (code : Option Text) (message sql : Text)
  | readOnly
  | unboundParameter (name : Text)
  | decode (column : Text) (cause : Undecodable)
  | validation (cause : Invalid)
  | timeout (limit : Duration)
  deriving DecidableEq, Repr

/-! ## Wording -/

def Misconfigured.message : Misconfigured → Text
  | .unreadable => "The configuration is not readable"
  | .typeMissing group => "Database type not defined in '" ++ group ++ "' configuration"
  | .keysMissing group keys =>
    "Missing required connection keys in '" ++ group ++ "' configuration: " ++ Text.joined ", " keys
  | .badSetting group key value =>
    "Invalid value '" ++ value ++ "' for '" ++ key ++ "' in '" ++ group ++ "' configuration"
  | .unknownConnection name => "Connection '" ++ name ++ "' is not configured"
  | .unknownType driver group => "Unknown database type '" ++ driver ++ "' in '" ++ group ++ "' configuration"
  | .other message => message

def Unreadable.message : Unreadable → Text
  | .integer fault => fault.message
  | .float fault => fault.message
  | .notBoolean => "provided string was not \x60true\x60 or \x60false\x60"
  | .noCharacter => "cannot parse char from empty string"
  | .manyCharacters => "too many characters in string"
  | .other message => message

def Undecodable.message : Undecodable → Text
  | .noSuchColumn => "no such column"
  | .unexpectedNull => "unexpected NULL"
  | .unreadable value fault => "'" ++ value ++ "': " ++ fault.message
  | .other message => message

def Invalid.message : Invalid → Text
  | .emptyIdentifier => "Identifier cannot be empty"
  | .nulInIdentifier => "Identifier cannot contain NUL character"
  | .starNotLast path => "'*' must be the last part of identifier '" ++ path ++ "'"
  | .expectedDot found => "Expected '.' between identifier parts, got '" ++ [found, '\'']
  | .trailingDot => "Trailing '.' in identifier"
  | .unclosedQuote => "Unclosed quoted identifier"
  | .emptyQuoted => "Empty quoted identifier"
  | .badCharacter found path => "Invalid character '" ++ [found] ++ "' in identifier '" ++ path ++ "'"
  | .emptySegment => "Empty identifier segment"
  | .starTable name => "'*' is not a valid table name: '" ++ name ++ "'"
  | .unmatchedClose position => "Unmatched group close at position " ++ Text.ofNat position
  | .emptyGroup position => "Empty condition group at position " ++ Text.ofNat position
  | .groupsLeftOpen count => Text.ofNat count ++ " condition group(s) left open"
  | .boundsNeeded operator column => operator ++ " on " ++ column ++ " needs exactly two bounds"
  | .onBeforeJoin => "on() called before join()"
  | .usingBeforeJoin => "using() called before join()"
  | .columnsDiffer => "values() columns differ from the insert columns"
  | .insertWithoutTable => "INSERT requires a table"
  | .insertWithoutColumns => "INSERT requires at least one column"
  | .insertWithoutRows => "INSERT requires at least one row"
  | .rowWidth row values columns =>
    "INSERT row " ++ Text.ofNat row ++ " has " ++ Text.ofNat values ++ " values for " ++ Text.ofNat columns ++ " columns"
  | .updateWithoutTable => "UPDATE requires a table"
  | .updateWithoutColumns => "UPDATE requires at least one SET column"
  | .deleteWithoutTable => "DELETE requires a table"
  | .unknownKind => "Cannot detect statement kind; use RawQuery::new"
  | .nulInLiteral => "NUL in string literal"
  | .nulForServer => "PostgreSQL string literals cannot contain NUL"
  | .noRows receipt => "Expected a row set, got " ++ receipt.inspected
  | .other message => message

namespace Error

def message : Error → Text
  | .configuration cause => "Configuration error: " ++ cause.message
  | .connection code message => "Connection error [" ++ code ++ "]: " ++ message
  | .query code message sql =>
    "Query error [" ++ code.getD ['-'] ++ "]: " ++ message ++ " [ " ++ sql ++ " ]"
  | .readOnly => "Result cursor is read-only"
  | .unboundParameter name => "Unbound parameter ':" ++ name ++ "'"
  | .decode column cause => "Decode error on column '" ++ column ++ "': " ++ cause.message
  | .validation cause => "Validation error: " ++ cause.message
  | .timeout limit => "Query timeout after " ++ limit.text

/-- the statement an error is about, if it is about one -/
def sql? : Error → Option Text
  | .query _ _ sql => some sql
  | _ => none

def isConfiguration : Error → Bool
  | .configuration _ => true
  | _ => false

def isConnection : Error → Bool
  | .connection _ _ => true
  | _ => false

def isQuery : Error → Bool
  | .query _ _ _ => true
  | _ => false

/-- the refusal to write through a cursor -/
def isReadOnly : Error → Bool
  | .readOnly => true
  | _ => false

def isTimeout : Error → Bool
  | .timeout _ => true
  | _ => false

end Error

end SqlAccess
