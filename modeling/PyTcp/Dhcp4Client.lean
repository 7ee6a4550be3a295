import PyTcp.Address

namespace PyTcp

section Fetch

end Fetch

end PyTcp
