/-
  EntityQuery.Command.Guide — the pages of the manual that the command prints: an
  overview, and a page for each category.

  A category goes by several names, in any ASCII case, with hyphens for underscores.
-/

import EntityQuery.Command.Error

namespace EntityQuery.Command

inductive Category where
  | queries
  | values
  | conditions
  | parameters
  | families
  | metadata
  deriving DecidableEq

namespace Category

def names : List (String × Category) :=
  [("queries", queries), ("query", queries), ("syntax", queries), ("values", values), ("value", values),
   ("literals", values), ("conditions", conditions), ("condition", conditions), ("where", conditions),
   ("parameters", parameters), ("params", parameters), ("bind", parameters), ("families", families),
   ("family", families), ("metadata", metadata), ("fields", metadata), ("mapping", metadata)]

def ofName? (name : String) : Option Category :=
  names.lookup (String.ofList (name.toLower.toList.map fun c => if c == '-' then '_' else c))

end Category

/-! ## Pages -/

namespace Guide

/-- What there is to read, and the shortest examples. -/
def overview : String :=
  "ARTEMIS QUERY DOCUMENTATION

Artemis queries read and write entities of NoSQL databases. A query names one
operation (get, delete, select, update, insert), is parsed once, and may be
prepared with @named or ?1 positional parameters that are bound before it runs.

DOCUMENTATION CATEGORIES

  queries           The five operations and their clauses
  values            Literals, JSON spans and convert(...)
  conditions        where clauses: comparisons, in, between, and/or/not
  parameters        @name and ?N parameters and how to bind them
  families          Which operations each database family accepts
  metadata          Mapping logical field names to native attribute names

QUICK REFERENCE

  get \"Diana\", 12                           Key-value lookup
  delete \"Diana\"                            Key-value removal
  select * from Person where age > 10       Select with a condition
  update Person set age = 30 where id = 1   Update matching entities
  insert Person (name = \"Ada\", age = 36)    Insert one entity

Run 'artemis doc <category>' for detailed documentation.
"

/-- The five operations and their clauses. -/
def queries : String :=
  "QUERIES - Operations and Clauses

Keywords are case-insensitive. A query holds exactly one operation.

GET
  get <value> [, <value>]*
    Reads the entities stored under one or more keys.

    Example:
      get \"Diana\", \"Ana\"

    Constraints:
      - At least one key is required

DELETE
  delete <value> [, <value>]*
    Removes the entities stored under the keys. Always returns an empty
    result, however many entities were removed.

SELECT
  select [* | field, ...] from <entity>
         [where <condition>]
         [order by field [asc|desc], ...]
         [skip N] [limit N]

    Example:
      select name, address.city from Person
        where age >= 18 order by name desc skip 10 limit 5

    Constraints:
      - Omitting the field list, or '*', selects every field
      - Fields may be dotted paths into embedded documents

UPDATE
  update <entity> set field = value [, ...] [where <condition>]

    Example:
      update Person set age = 31, active = true where name = \"Ada\"

INSERT
  insert <entity> (field = value [, ...])

    Example:
      insert Person (name = \"Ada\", address.city = \"London\")
"

/-- Literals and typed literals. -/
def values : String :=
  "VALUES - Literals

STRINGS
  \"Diana\" or 'Diana'
    No escape sequences; a string ends at the next matching quote.

NUMBERS
  12, -3          64-bit integers
  10.5, -0.25     Floating point

BOOLEANS AND NULL
  true, false, null

JSON
  \x7b\"Ana\": \"Sister\"\x7d   [\"a\", \"b\"]
    Taken verbatim as one value and normalized (whitespace removed, key
    order kept). Passed to the database as a string.

CONVERT
  convert(<string|number>, <type>)
    Coerces a literal into a typed value. Only the last segment of the type
    name matters, so java.time.LocalDate and LocalDate agree.

    Types:
      String, Boolean, Long, Integer, Short, Byte, Double, Float,
      BigDecimal, BigInteger, LocalDate, LocalDateTime

    Example:
      get convert(\"2018-01-10\", java.time.LocalDate)

    Constraints:
      - Integral types are range checked: convert(70000, Short) fails
      - Dates use ISO format (2018-01-10, 2018-01-10T10:15:30)
"

/-- Conditions after `where`. -/
def conditions : String :=
  "CONDITIONS - where Clauses

COMPARISONS
  field = value      field > value      field < value
  field >= value     field <= value     field like \"pattern\"

  Numbers compare across integer, float and decimal: 10 = 10.0.

LIKE
  %   any run of characters
  _   exactly one character

    Example:
      name like \"Ad%\"

IN
  field in (v1, v2, ...)
  field in [\"a\", \"b\"]
  field in @ids

BETWEEN
  field between low and high
    Inclusive on both ends.

LOGIC
  not    binds tightest
  and    binds tighter than or
  or
  ( )    overrides precedence

    Example:
      where not active = true and (age < 18 or age > 65)
"

/-- Parameters and how they are bound. -/
def parameters : String :=
  "PARAMETERS - Binding

NAMED
  @name
    Example:
      select * from Person where name = @name

POSITIONAL
  ?1, ?2
    Bound by their number: --bind 1=...

RUNNING
  A query with parameters must be prepared and fully bound before it runs.
  Running it directly fails. Binding a name the query does not declare fails.
  Bindings can be replaced and the statement run again; every run goes to
  the database.

CLI
  artemis check 'get @id' --family key-value --bind id=10
  artemis check 'select * from Person where name = @n' --bind 'n=\"Ada\"'

  The value after '=' is JSON; anything that does not parse as JSON is
  taken as a plain string.
"

/-- What each family accepts. -/
def families : String :=
  "FAMILIES - Database Families

  key-value    get, delete
  column       select, update, insert, delete
  document     select, update, insert, delete
  graph        select

  A query whose operation the family does not accept is rejected before it
  reaches the database.
"

/-- How names are mapped. -/
def metadata : String :=
  "METADATA - Field Mapping

Queries use logical (class-shaped) names. A metadata file maps them to the
names stored in the database:

  [
    \x7b
      \"name\": \"person\",
      \"class_name\": \"Person\",
      \"fields\": [
        \x7b \"field_name\": \"name\", \"name\": \"native_name\" \x7d,
        \x7b \"field_name\": \"address\", \"name\": \"addr\", \"kind\": \"embedded\" \x7d
      ]
    \x7d
  ]

RESOLUTION
  1. A directly mapped field uses its native name
       name            -> native_name
  2. Otherwise the name is split on camelCase boundaries and growing
     prefixes are looked up; the first mapped prefix becomes the parent
     path and the rest is the nested field
       addressCity     -> addr.city
       addressZipCode  -> addr.zipCode
  3. Anything unmatched is used as written

  Entity names map through the same file: Person -> person.
"

def page : Category → String
  | .queries => queries
  | .values => values
  | .conditions => conditions
  | .parameters => parameters
  | .families => families
  | .metadata => metadata

/-- The page of a category by one of its names. -/
def pageOf (name : String) : Except CommandError String :=
  match Category.ofName? name with
  | some c => .ok (page c)
  | none => .error (.unknownCategory name)

end Guide

end EntityQuery.Command
