import PolicyCheck.Dictionary
import PolicyCheck.Text.Pieces

/-!
# Relation files

The interpreter writes every output relation to a file of its own: a row a line, the cells of a row
between tabs. `Relation.ofText` reads such a file and `Relation.text` writes one.
-/

namespace PolicyCheck.Datalog

abbrev Row := List String

abbrev Relation := List Row

namespace Relation

def separator : Char := '\t'

def readRow (line : List Char) : Row := (Text.pieces separator line).map String.ofList

def ofText (text : String) : Relation := (Text.lines text.toList).map readRow

def rowText (row : Row) : String := (String.singleton separator).intercalate row

def text (rows : Relation) : String := String.join (rows.map fun row => rowText row ++ "\n")

end Relation

abbrev Relations := Dictionary Relation

end PolicyCheck.Datalog
