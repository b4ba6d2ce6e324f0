/-
The syntax listing: for every mnemonic the described patterns of its instructions,
one to a line under the mnemonic.
-/
import AssemblerTables.Groups
import AssemblerTables.Text.Lines

namespace AssemblerTables

structure ListingEntry where
  mnemonic : String
  forms : List String
deriving DecidableEq, Repr

namespace Listing

def ofGroups (groups : List Group) : List ListingEntry :=
  groups.map fun g =>
    { mnemonic := g.mnemonic, forms := g.members.map fun i => Pattern.describe i.pattern }

def defaultIndent : String := "  "

def entryLines (indent : String) (e : ListingEntry) : List String :=
  (e.mnemonic ++ ":") :: e.forms.map (indent ++ ·)

def text (indent : String) (listing : List ListingEntry) : String :=
  Text.unlines (listing.flatMap (entryLines indent))

end Listing
end AssemblerTables
