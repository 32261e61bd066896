import Flowie.Security.ConcreteRule
import Flowie.Endpoint.Wills
import Flowie.Endpoint.ControlReplies
import Flowie.Security.Decision
import Flowie.Endpoint.SelectorRuns
import Flowie.Session.Present
import Flowie.Session.Outbound
import Flowie.Client.InboundQos2
import Flowie.Cluster.OwnerEpochs
import Flowie.Cluster.ConnectBind
import Flowie.Cluster.PublishRouter
import Flowie.Control.AuthRateLimiter
