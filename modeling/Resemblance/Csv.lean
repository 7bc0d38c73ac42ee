/-!
# Comma-separated values

A record is one row of fields with a carriage return and a line feed behind
it.  A field that holds a comma, a quote or a line break stands in quotes, and
a quote inside it is written twice.
-/

namespace Resemblance.Csv

def needsQuotes (c : Char) : Bool :=
  c == ',' || c == '"' || c == '\n' || c == '\r'

def doubleQuotes : List Char → List Char
  | [] => []
  | c :: rest =>
    if c == '"' then '"' :: '"' :: doubleQuotes rest else c :: doubleQuotes rest

def field (t : List Char) : List Char :=
  if t.any needsQuotes then '"' :: doubleQuotes t ++ ['"'] else t

def lineEnd : List Char := ['\r', '\n']

def record (fields : List (List Char)) : List Char :=
  [','].intercalate (fields.map field) ++ lineEnd

def document (records : List (List (List Char))) : List Char :=
  records.flatMap record

end Resemblance.Csv
