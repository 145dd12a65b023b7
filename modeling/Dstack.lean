import Dstack.Basic
import Dstack.Decimal
import Dstack.SshTunnel
import Dstack.PortAllocation
import Dstack.Tunnel
import Dstack.PortBound
import Dstack.Hub.Runs
import Dstack.Hub.RunPlan
import Dstack.Hub.RunNames
import Dstack.Hub.DeleteRuns
import Dstack.Hub.ListRuns
import Dstack.Fleets
