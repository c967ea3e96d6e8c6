import DashPlatform.Dpp.UniqueIndices

/-! # Replacements that change nothing

A document is replaced by its owner with the data it has. The checks of unique indices see the replacement, which has no
creation time, and not the document that comes of it. -/

namespace DocumentsBatch
variable {dpp : DocumentsDpp} {store : DocumentStore} {dataContract : DataContract} {ownerId : Buffer}
  {t : DocumentTransition} {index : IndexDefinition}

/-! ### What the checks see -/

section
variable {contracts : List DataContract} {d : Document} {updatedAt : Option Date}

end

/-! ### A note with its time of creation in an index -/

end DocumentsBatch
