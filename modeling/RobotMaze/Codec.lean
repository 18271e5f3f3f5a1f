/-
Codecs: documents as text.

What is kept in files is a tree of data, and the text of a file is one notation for it.
Catalogs and settings only need a way to write trees and a way to read them, so they
take a codec and know nothing of the notation behind it.
-/
import RobotMaze.Datum

namespace RobotMaze

/-- A notation for documents. -/
structure Codec where
  /-- The text of a tree, if the notation has one. -/
  print? : Datum → Option String
  /-- The tree of a text, if it is written in the notation. -/
  read? : String → Option Datum

/-- What a person is told about a text that is no document, or not the one expected. -/
def Codec.faultText : String := "the document is not of the expected form"

end RobotMaze
