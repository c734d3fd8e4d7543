import ApiTypings.Main
import ApiTypings.Proofs.Declaration.ReadBack
import ApiTypings.Proofs.Declaration.Containment
import ApiTypings.Proofs.Declaration.Repeated
import ApiTypings.Proofs.Page.Recovery
import ApiTypings.Proofs.Page.Definitions
import ApiTypings.Proofs.Page.Accepted
import ApiTypings.Proofs.Session.Course
import ApiTypings.Proofs.Printing.Documentation
import ApiTypings.Proofs.Printing.Determined
import ApiTypings.Proofs.Declaration.Documentation
import ApiTypings.Proofs.Declaration.Variants
import ApiTypings.Proofs.Rendering.CommentWidth
import ApiTypings.Proofs.Printing.Deeper
import ApiTypings.Proofs.Declaration.Origin
import ApiTypings.Proofs.Page.TextRecords
import ApiTypings.Proofs.Declaration.FieldNames
import ApiTypings.Proofs.Declaration.StandardNames
import ApiTypings.Proofs.Printing.Silent
import ApiTypings.Proofs.Rendering.EmptyUnions
import ApiTypings.Proofs.Printing.Neighbours
import ApiTypings.Proofs.Page.SectionBorders
import ApiTypings.Proofs.Page.CellLanguage
import ApiTypings.Proofs.Declaration.Documented
import ApiTypings.Proofs.Text.Fewest
import ApiTypings.Proofs.Page.Closure
import ApiTypings.Proofs.Page.TableFaults
import ApiTypings.Proofs.Page.Descriptions
import ApiTypings.Proofs.Text.Greedy
import ApiTypings.Proofs.Session.Diagnostics
import ApiTypings.Proofs.Printing.Operations
import ApiTypings.Proofs.Declaration.Untagged
import ApiTypings.Proofs.Naming.LeastFree
import ApiTypings.Proofs.Page.Links
import ApiTypings.Proofs.Markup.Selectors
